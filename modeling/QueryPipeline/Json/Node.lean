import QueryPipeline.Json.Piece

/-!
# JSON text as a tree

A text that should be JSON is held as a `Node` even where it is not. Every node says what kind of
value begins at its place, and a place where the text goes wrong is kept in the tree with its
`Fault`; nothing is known of the text after it. A reader of the tree that goes from left to right
therefore meets either a value of the wrong shape or a fault, whichever comes first.

Some faults count only for a value that is read and not for one that is passed over: a number
without a finite double, and half of a pair of surrogates. `Node.pass` gives the fault met in
passing over a value. A string that is read as bytes is held to less than one that is read as text:
it may hold control characters as they are, too (`Quoted.bytes`).
-/

namespace QueryPipeline.Json

/-- How a text fails to be JSON. -/
inductive Fault where
  /-- The text ends too early. -/
  | ended
  /-- The text goes on in a way that the grammar does not allow. -/
  | malformed
deriving DecidableEq, Repr

/-- A string of the text, after its opening quote. -/
inductive Quoted where
  | text (content : String)
  /-- The parts are no text; the string may break further on. -/
  | loose (pieces : List Piece) (ending : Option Fault)
  | broken (fault : Fault)
deriving DecidableEq, Repr

/-- The parts of a number as written. -/
structure Lexeme where
  negative : Bool
  /-- The digits before the point. -/
  whole : List Char
  /-- The digits after the point; none if there is no point. -/
  fraction : List Char
  /-- A negative sign of the exponent, and its digits. -/
  exponent : Option (Bool × List Char)
deriving DecidableEq, Repr

/-- A number of the text. -/
inductive Numeral where
  | written (lexeme : Lexeme)
  | broken (fault : Fault)
deriving DecidableEq, Repr

mutual

/-- What stands at a place where a value should. -/
inductive Node where
  /-- No value begins here. -/
  | absent (fault : Fault)
  /-- A word begins here that is not completed. -/
  | misspelled (fault : Fault)
  | null
  | boolean (b : Bool)
  | number (n : Numeral)
  | string (s : Quoted)
  | array (items : Items)
  | object (members : Members)

/-- The elements of an array, up to its end or to a fault. -/
inductive Items where
  | closed
  /-- Neither a comma nor the end follows the elements. -/
  | cut (fault : Fault)
  | cons (head : Node) (tail : Items)

/-- The members of an object, up to its end or to a fault. -/
inductive Members where
  | closed
  /-- Neither a comma nor the end follows the members. -/
  | cut (fault : Fault)
  /-- No name begins where one should; what begins there instead. -/
  | unnamed (node : Node)
  | cons (key : Quoted) (value : Node) (tail : Members)

end

/-- The fault of what stands where a name should. -/
def Node.faultAsName : Node → Fault
  | .absent fault => fault
  | _ => .malformed

/-! ## Passing over a value -/

/-- The fault at which a string breaks, if it does. -/
def orEnding {α : Type} (a : α) : Option Fault → Except Fault α
  | none => .ok a
  | some fault => .error fault

/-- Passes over a string; a surrogate without its partner is no fault then. -/
def Quoted.pass : Quoted → Except Fault Unit
  | .text _ => .ok ()
  | .loose pieces ending =>
    if pieces.any Piece.isControl then .error .malformed else orEnding () ending
  | .broken fault => .error fault

/-- Passes over a number; one that ends too early is malformed then. -/
def Numeral.pass : Numeral → Except Fault Unit
  | .written _ => .ok ()
  | .broken _ => .error .malformed

mutual

/-- Passes over a value: only its grammar counts. -/
def Node.pass : Node → Except Fault Unit
  | .absent fault => .error fault
  | .misspelled fault => .error fault
  | .null => .ok ()
  | .boolean _ => .ok ()
  | .number n => n.pass
  | .string s => s.pass
  | .array items => items.pass
  | .object members => members.pass

/-- Passes over the elements of an array. -/
def Items.pass : Items → Except Fault Unit
  | .closed => .ok ()
  | .cut fault => .error fault
  | .cons head tail =>
    match head.pass with
    | .ok () => tail.pass
    | .error fault => .error fault

/-- Passes over the members of an object. -/
def Members.pass : Members → Except Fault Unit
  | .closed => .ok ()
  | .cut fault => .error fault
  | .unnamed node => .error node.faultAsName
  | .cons key value tail =>
    match key.pass with
    | .error fault => .error fault
    | .ok () =>
      match value.pass with
      | .ok () => tail.pass
      | .error fault => .error fault

end

/-! ## Reading a string -/

/-- The content of a string that is read as text. -/
def Quoted.read : Quoted → Except Fault String
  | .text content => .ok content
  | .loose _ _ => .error .malformed
  | .broken fault => .error fault

/-- The content of a string that is read as bytes. -/
def Quoted.bytes : Quoted → Except Fault (List UInt8)
  | .text content => .ok content.toUTF8.toList
  | .loose pieces ending => orEnding (Piece.bytes pieces) ending
  | .broken fault => .error fault

end QueryPipeline.Json
