import QueryPipeline.Json.Error
import QueryPipeline.Json.Scan

/-!
# Reading typed values

A `Reader` takes a value out of a tree. It goes from left to right and stops at the first fault or
mismatch, so of several things wrong with a text the first one is reported. Its first argument
is the number of arrays and objects that may still be entered: a text nests at most `maxDepth` deep
where it is read, and to any depth where it is passed over.

A record is read from an object by the names of its fields (`readFields`) or from an array by their
order (`Items.next?`). A value that is tried in several forms is first checked as a whole
(`Node.check`).
-/

namespace QueryPipeline.Json

/-- Takes a value out of a tree, entering the given number of levels at most. -/
abbrev Reader (α : Type) := Nat → Node → Except ReadError α

/-- The number of arrays and objects that a text may nest. -/
def maxDepth : Nat := 127

/-- A fault as the error of a reader. -/
def orFault {α : Type} : Except Fault α → Except ReadError α
  | .ok a => .ok a
  | .error fault => .error (.fault fault)

/-- The error of a text that is not JSON. -/
def malformed {α : Type} : Except ReadError α :=
  .error (.fault .malformed)

/-- The error of a value that has not the shape asked for. -/
def refuse {α : Type} (m : Mismatch) : Except ReadError α :=
  .error (.mismatch m)

/-! ## Scalars -/

/-- The name of a node in messages; a scalar is read for it in full. -/
def Node.found : Node → Except ReadError Found
  | .absent fault => .error (.fault fault)
  | .misspelled fault => .error (.fault fault)
  | .null => .ok .null
  | .boolean b => .ok (.boolean b)
  | .number n => orFault (n.read.map Quantity.found)
  | .string s => orFault (s.read.map Found.text)
  | .array _ => .ok .sequence
  | .object _ => .ok .map

/-- The error of a node of another kind than expected. -/
def wrongKind {α : Type} (expected : String) (node : Node) : Except ReadError α :=
  match node.found with
  | .ok found => refuse (.wrongKind found expected)
  | .error e => .error e

/-- Reads a string. -/
def readText : Reader String
  | _, .string s => orFault s.read
  | _, node => wrongKind "a string" node

/-- Reads a whole number between two bounds. -/
def readWhole (low high : Int) (expected : String) : Reader Int
  | _, .number n =>
    match n.read with
    | .error fault => .error (.fault fault)
    | .ok (.whole n) =>
      if low ≤ n ∧ n ≤ high then .ok n else refuse (.wrongContent (.whole n) expected)
    | .ok (.double x) => refuse (.wrongKind (.double x) expected)
  | _, node => wrongKind expected node

/-- Reads a value that may be null. -/
def readOptional {α : Type} (reader : Reader α) : Reader (Option α)
  | _, .null => .ok none
  | room, node => (reader room node).map some

/-! ## Sequences -/

/-- Reads all elements of an array. -/
def Items.readAll {α : Type} (reader : Node → Except ReadError α) :
    Items → Except ReadError (List α)
  | .closed => .ok []
  | .cut fault => .error (.fault fault)
  | .cons head tail => do
    let a ← reader head
    let rest ← tail.readAll reader
    return a :: rest

/-- Reads an array of any length. -/
def readList {α : Type} (reader : Reader α) : Reader (List α)
  | 0, .array _ => malformed
  | room + 1, .array items => items.readAll (reader room)
  | _, node => wrongKind "a sequence" node

/-! ## Records -/

/-- The next element of an array, if there is one. -/
def Items.next? : Items → Except ReadError (Option (Node × Items))
  | .closed => .ok none
  | .cut fault => .error (.fault fault)
  | .cons head tail => .ok (some (head, tail))

/-- Reads the next element of an array and takes a default if there is none. -/
def Items.nextOr {α : Type} (default : α) (reader : Node → Except ReadError α) (items : Items) :
    Except ReadError (α × Items) := do
  match ← items.next? with
  | none => return (default, items)
  | some (head, tail) => return (← reader head, tail)

/-- Reads the next element of an array; there must be one. -/
def Items.nextOrRefuse {α : Type} (missing : Mismatch) (reader : Node → Except ReadError α)
    (items : Items) : Except ReadError (α × Items) := do
  match ← items.next? with
  | none => refuse missing
  | some (head, tail) => return (← reader head, tail)

/-- The array must end here: a further element is malformed. -/
def Items.finish : Items → Except ReadError Unit
  | .closed => .ok ()
  | .cut fault => .error (.fault fault)
  | .cons _ _ => malformed

/-- The object must end here: a further member is malformed. -/
def Members.finish : Members → Except ReadError Unit
  | .closed => .ok ()
  | .cut fault => .error (.fault fault)
  | .unnamed _ => malformed
  | .cons _ _ _ => malformed

/-- What is done with a member of an object, by its name. -/
inductive FieldStep (σ : Type) where
  /-- Passes over the value. -/
  | pass
  /-- Fails before the value is read. -/
  | refuse (m : Mismatch)
  /-- Reads the value. -/
  | read (reader : Node → Except ReadError σ)

/-- A field that may be given once. -/
def FieldStep.once {σ α : Type} (present : Option α) (name : String)
    (reader : Node → Except ReadError σ) : FieldStep σ :=
  if present.isSome then .refuse (.duplicateField name) else .read reader

/-- Reads the members of an object in order, each as its name and the members before it say. -/
def Members.readFields {σ : Type} (field : String → σ → FieldStep σ) :
    Members → σ → Except ReadError σ
  | .closed, s => .ok s
  | .cut fault, _ => .error (.fault fault)
  | .unnamed node, _ => .error (.fault node.faultAsName)
  | .cons key value tail, s => do
    let name ← orFault key.read
    match field name s with
    | .pass =>
      orFault value.pass
      tail.readFields field s
    | .refuse m => Json.refuse m
    | .read reader =>
      let s ← reader value
      tail.readFields field s

/-- Reads a record from an array of its fields in order or from an object by their names. -/
def readRecord {α : Type} (expected : String) (byOrder : Nat → Items → Except ReadError (α × Items))
    (byName : Nat → Members → Except ReadError α) : Reader α
  | 0, .array _ => malformed
  | room + 1, .array items => do
    let (a, rest) ← byOrder room items
    rest.finish
    return a
  | 0, .object _ => malformed
  | room + 1, .object members => byName room members
  | _, node => wrongKind expected node

/-! ## Whole values -/

mutual

/-- Reads a value of any shape and keeps nothing of it. -/
def Node.check : Nat → Node → Except ReadError Unit
  | _, .absent fault => .error (.fault fault)
  | _, .misspelled fault => .error (.fault fault)
  | _, .null => .ok ()
  | _, .boolean _ => .ok ()
  | _, .number n => orFault (n.read.map fun _ => ())
  | _, .string s => orFault (s.read.map fun _ => ())
  | 0, .array _ => malformed
  | room + 1, .array items => items.check room
  | 0, .object _ => malformed
  | room + 1, .object members => members.check room

/-- Reads the elements of an array and keeps nothing of them. -/
def Items.check : Nat → Items → Except ReadError Unit
  | _, .closed => .ok ()
  | _, .cut fault => .error (.fault fault)
  | room, .cons head tail => do
    head.check room
    tail.check room

/-- Reads the members of an object and keeps nothing of them. -/
def Members.check : Nat → Members → Except ReadError Unit
  | _, .closed => .ok ()
  | _, .cut fault => .error (.fault fault)
  | _, .unnamed node => .error (.fault node.faultAsName)
  | room, .cons key value tail => do
    let _ ← orFault key.read
    value.check room
    tail.check room

end

/-! ## Texts -/

/-- Reads a whole text: nothing but spaces may follow the value. -/
def parse {α : Type} (reader : Reader α) (text : String) : Except ReadError α := do
  let scanned := scan text
  let a ← reader maxDepth scanned.node
  if scanned.isWhole then return a else malformed

end QueryPipeline.Json
