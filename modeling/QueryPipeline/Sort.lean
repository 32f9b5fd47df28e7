import QueryPipeline.CompileError
import QueryPipeline.Options
import QueryPipeline.Value.Read

/-!
# Sorting

The sort stage is a keyed list of directions whose order is the precedence of the keys. A client's
list may name a field twice: the field keeps its place and takes the later direction.
-/

namespace QueryPipeline

open Json

/-- The direction of a sort key. -/
inductive SortDirection where
  | ascending
  | descending
deriving DecidableEq, Repr

namespace SortDirection

/-- The direction of a name. -/
def ofName? : String → Option SortDirection
  | "asc" => some .ascending
  | "des" => some .descending
  | _ => none

/-- The number that stands for a direction in the store. -/
def indicator : SortDirection → Int32
  | .ascending => 1
  | .descending => -1

end SortDirection

/-- The fields to sort by, the first one deciding first. -/
structure SortStage where
  keys : Keyed SortDirection
deriving DecidableEq

namespace SortStage

/-- The stage without keys. -/
def empty : SortStage := ⟨[]⟩

/-- Adds a key. A field that is present keeps its place and takes the new direction. -/
def push (stage : SortStage) (field : String) (direction : SortDirection) : SortStage :=
  ⟨stage.keys.put field direction⟩

/-- The stage that a list of keys builds. -/
def ofKeys (keys : List (String × SortDirection)) : SortStage :=
  keys.foldl (fun stage key => stage.push key.1 key.2) empty

/-- No field to sort by. -/
def isEmpty (stage : SortStage) : Bool :=
  stage.keys.isEmpty

/-- The stage as a document: each field with the number of its direction. -/
def toDocument (stage : SortStage) : Document :=
  Keyed.ofUpdates (stage.keys.map fun key => (key.1, .int32 key.2.indicator))

end SortStage

/-! ## Compiling a client's list -/

/-- A sort key as a client writes it. -/
structure SortSpec where
  field : String
  direction : String

/-- The parts of a sort key read so far from an object. -/
structure SortSpecDraft where
  field : Option String
  direction : Option String

/-- What is done with a member of a sort key. -/
def SortSpecDraft.step (room : Nat) (name : String) (draft : SortSpecDraft) :
    FieldStep SortSpecDraft :=
  match name with
  | "db_name" => .once draft.field "db_name" fun node => do
      return { draft with field := some (← readText room node) }
  | "type" => .once draft.direction "type" fun node => do
      return { draft with direction := some (← readText room node) }
  | _ => .pass

/-- Reads a sort key; the field must be given. -/
def SortSpec.read : Reader SortSpec :=
  readRecord "struct SortSpec"
    (fun room items => do
      let missing := Mismatch.wrongLength 0 "struct SortSpec with 2 elements"
      let (field, items) ← items.nextOrRefuse missing (readText room)
      let (direction, items) ← items.nextOr "" (readText room)
      return (⟨field, direction⟩, items))
    (fun room members => do
      let draft ← members.readFields (SortSpecDraft.step room) ⟨none, none⟩
      match draft.field with
      | none => refuse (.missingField "db_name")
      | some field => return ⟨field, draft.direction.getD ""⟩)

/-- Adds a client's key; a key with an unknown direction is dropped or refused. -/
def SortStage.add (policy : UnknownPolicy) (stage : SortStage) (spec : SortSpec) :
    Except CompileError SortStage :=
  match SortDirection.ofName? spec.direction with
  | some direction => .ok (stage.push spec.field direction)
  | none =>
    match policy with
    | .reject => .error (.unknownDirection spec.direction)
    | .ignore => .ok stage

/-- Compiles a client's keys in order. -/
def compileSortSpecs (policy : UnknownPolicy) (specs : List SortSpec) :
    Except CompileError SortStage :=
  specs.foldlM (SortStage.add policy) SortStage.empty

/-- Reads and compiles an array of sort keys. -/
def compileSort (policy : UnknownPolicy) (text : String) : Except CompileError SortStage := do
  let specs ← orUnreadable .sort (parse (readList SortSpec.read) text)
  compileSortSpecs policy specs

end QueryPipeline
