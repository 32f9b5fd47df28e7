import QueryPipeline.Json.Decode
import QueryPipeline.Json.Write

/-!
# Options of a compiler

A policy says what becomes of names that the compiler does not know, and a default page size stands
in where a request gives none. Options are read from JSON, where either may be left out, and
written as JSON with both.
-/

namespace QueryPipeline

open Json

/-- What becomes of an operator, accumulator or direction whose name is unknown. -/
inductive UnknownPolicy where
  /-- The entry is dropped, or admits everything. -/
  | ignore
  /-- Compilation fails. -/
  | reject
deriving DecidableEq, Repr

/-- The name of a policy. -/
def UnknownPolicy.name : UnknownPolicy → String
  | .ignore => "ignore"
  | .reject => "reject"

/-- The policy of a name. -/
def UnknownPolicy.ofName? : String → Option UnknownPolicy
  | "ignore" => some .ignore
  | "reject" => some .reject
  | _ => none

/-- How a compiler treats what a request leaves open. -/
structure CompilerOptions where
  unknown : UnknownPolicy
  defaultPageSize : Int64
deriving DecidableEq

/-- The page size where nothing else is configured. -/
def standardPageSize : Int64 := 10

/-- The options where nothing is configured. -/
def CompilerOptions.default : CompilerOptions := ⟨.ignore, standardPageSize⟩

/-- The options that reject unknown names. -/
def CompilerOptions.strict : CompilerOptions := ⟨.reject, standardPageSize⟩

/-! ## Reading -/

/-- The policy of a name in JSON. -/
def policyOfName (name : String) : Except ReadError UnknownPolicy :=
  match UnknownPolicy.ofName? name with
  | some policy => .ok policy
  | none => refuse (.unknownVariant name ["ignore", "reject"])

/-- Reads the null that a variant without content may be given as content. -/
def readUnit : Reader Unit
  | _, .null => .ok ()
  | _, node => wrongKind "unit" node

/-- Reads a policy: its name, or an object whose one key is the name. No other value begins a
choice of names, so any other is malformed; a value in place of the key is one of the wrong kind. -/
def readPolicy : Reader UnknownPolicy
  | _, .absent fault => .error (.fault fault)
  | _, .string s => do policyOfName (← orFault s.read)
  | 0, .object _ => malformed
  | _ + 1, .object .closed => malformed
  | _ + 1, .object (.cut fault) => .error (.fault fault)
  | _ + 1, .object (.unnamed node) => wrongKind "variant identifier" node
  | room + 1, .object (.cons key value tail) => do
    let policy ← policyOfName (← orFault key.read)
    readUnit room value
    tail.finish
    return policy
  | _, _ => malformed

/-- Reads a number of 64 bits. -/
def readInt64 : Reader Int64 := fun room node => do
  let n ← readWhole (-0x8000000000000000) 0x7fffffffffffffff "i64" room node
  return Int64.ofInt n

/-- The options read so far from an object. -/
structure OptionsDraft where
  unknown : Option UnknownPolicy
  defaultPageSize : Option Int64

/-- What is done with a member of an object of options. -/
def OptionsDraft.field (room : Nat) (name : String) (draft : OptionsDraft) :
    FieldStep OptionsDraft :=
  match name with
  | "unknown" => .once draft.unknown "unknown" fun node => do
      return { draft with unknown := some (← readPolicy room node) }
  | "default_page_size" => .once draft.defaultPageSize "default_page_size" fun node => do
      return { draft with defaultPageSize := some (← readInt64 room node) }
  | _ => .pass

/-- The options of a draft; what is missing takes the value it has where nothing is configured. -/
def OptionsDraft.options (draft : OptionsDraft) : CompilerOptions :=
  ⟨draft.unknown.getD CompilerOptions.default.unknown,
    draft.defaultPageSize.getD CompilerOptions.default.defaultPageSize⟩

/-- Reads options. -/
def CompilerOptions.read : Reader CompilerOptions :=
  readRecord "struct CompilerOptions"
    (fun room items => do
      let (unknown, items) ← items.nextOr CompilerOptions.default.unknown (readPolicy room)
      let (size, items) ← items.nextOr CompilerOptions.default.defaultPageSize (readInt64 room)
      return (⟨unknown, size⟩, items))
    (fun room members => do
      return (← members.readFields (OptionsDraft.field room) ⟨none, none⟩).options)

/-! ## Writing -/

/-- Options as JSON. -/
def CompilerOptions.write (options : CompilerOptions) : List Char :=
  writeObject [writeMember "unknown" (writeText options.unknown.name),
    writeMember "default_page_size" (Text.integer options.defaultPageSize.toInt)]

end QueryPipeline
