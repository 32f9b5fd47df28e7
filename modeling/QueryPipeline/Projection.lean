import QueryPipeline.CompileError
import QueryPipeline.Value.Read

/-!
# Projections

A projection is a keyed list of fields, each included or excluded. A client writes it as a list of
names to include or as an object of flags (`Projection.read`); a flag is a truth value or a number,
and of the numbers zero excludes.
-/

namespace QueryPipeline

open Json

/-- The fields to include and to exclude. -/
structure Projection where
  fields : Keyed Bool
deriving DecidableEq

namespace Projection

/-- The projection of no field. -/
def empty : Projection := ⟨[]⟩

/-- Includes or excludes a field. One that is present keeps its place and takes the new flag. -/
def set (projection : Projection) (field : String) (included : Bool) : Projection :=
  ⟨projection.fields.put field included⟩

/-- Includes a field. -/
def including (projection : Projection) (field : String) : Projection :=
  projection.set field true

/-- Excludes a field. -/
def excluding (projection : Projection) (field : String) : Projection :=
  projection.set field false

/-- The projection that includes a list of fields. -/
def ofNames (names : List String) : Projection :=
  names.foldl including empty

/-- No field is given. -/
def isEmpty (projection : Projection) : Bool :=
  projection.fields.isEmpty

/-- The number that stands for a flag in the store. -/
def flagNumber (included : Bool) : Int32 :=
  if included then 1 else 0

/-- The projection as a document: each field with the number of its flag. -/
def toDocument (projection : Projection) : Document :=
  Keyed.ofUpdates (projection.fields.map fun field => (field.1, .int32 (flagNumber field.2)))

/-! ## Flags -/

/-- The flag that a value stands for: a truth value, or a number that is not zero. -/
def flag? : Value → Option Bool
  | .boolean b => some b
  | .int32 n => some (n != 0)
  | .int64 n => some (n != 0)
  | .double x => some (x != 0.0)
  | _ => none

/-- The error of a field of a projection. -/
def invalidField {α : Type} (field : String) (fault : FieldFault) : Except CompileError α :=
  .error (.invalidField .projection field fault)

/-- Adds an entry of a document of flags. The flag is looked at before the name. -/
def addFlag (projection : Projection) (entry : String × Value) : Except CompileError Projection :=
  match flag? entry.2 with
  | none => invalidField entry.1 (.notFlag entry.2)
  | some included =>
    if IsPlainName entry.1 then .ok (projection.set entry.1 included)
    else invalidField entry.1 .notPlain

/-- The projection of a document of flags. -/
def ofFlags (flags : Document) : Except CompileError Projection :=
  flags.foldlM addFlag empty

/-! ## Reading -/

/-- A projection that does not compile, as an error of reading. -/
def orRefused : Except CompileError Projection → Except ReadError Projection
  | .ok projection => .ok projection
  | .error e => refuse (.refused e.message)

/-- Reads a list of names or an object of flags. A value that is neither fits no form. -/
def read : Reader Projection := fun room node => do
  node.check room
  match readList readText room node with
  | .ok names => return ofNames names
  | .error _ =>
    match readDocument room node with
    | .ok flags => orRefused (ofFlags flags)
    | .error _ => refuse (.noForm "Wire")

end Projection

end QueryPipeline
