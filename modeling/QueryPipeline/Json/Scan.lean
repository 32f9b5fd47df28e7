import QueryPipeline.Json.Node
import QueryPipeline.Text.Hex

/-!
# From text to tree

`Json.scan` reads the first value of a text and says whether only spaces follow it. Each scanner
returns what it read and the text after it, or nothing where a fault was met. `scanValue` and its
companions count steps; twice the length of the text is enough of them, since every value that they
enter takes a character.
-/

namespace QueryPipeline.Json

/-- What was read, and the text after it; no text is left where a fault was met. -/
abbrev Scan (α : Type) := α × Option (List Char)

/-- Changes what was read. -/
def Scan.map {α β : Type} (f : α → β) (scanned : Scan α) : Scan β :=
  (f scanned.1, scanned.2)

/-- A space of the JSON grammar. -/
def isSpace (c : Char) : Bool :=
  c == ' ' || c == '\n' || c == '\t' || c == '\r'

/-- Drops the spaces in front. -/
def skipSpace (text : List Char) : List Char :=
  text.dropWhile isSpace

/-! ## Words -/

/-- Reads the letters of a word that stands for a value. -/
def scanWord (value : Node) : List Char → List Char → Scan Node
  | [], rest => (value, some rest)
  | _ :: _, [] => (.misspelled .ended, none)
  | letter :: letters, c :: rest =>
    if c = letter then scanWord value letters rest else (.misspelled .malformed, none)

/-! ## Strings -/

/-- The character that a short escape stands for. -/
def escaped? : Char → Option Char
  | '"' => some '"'
  | '\\' => some '\\'
  | '/' => some '/'
  | 'b' => some '\x08'
  | 'f' => some '\x0c'
  | 'n' => some '\n'
  | 'r' => some '\r'
  | 't' => some '\t'
  | _ => none

/-- The number of four digits of base sixteen. -/
def codeUnit? (a b c d : Char) : Option Nat := do
  let a ← Hex.digit? a
  let b ← Hex.digit? b
  let c ← Hex.digit? c
  let d ← Hex.digit? d
  return ((a * 16 + b) * 16 + c) * 16 + d

/-- A numbered escape needs four bytes; the text ends too early where fewer are left. -/
def shortEscapeFault (rest : List Char) : Fault :=
  if rest.foldl (fun n c => n + c.utf8Size) 0 < 4 then .ended else .malformed

/-- Adds a piece in front. -/
def pushPiece (piece : Piece) (read : List Piece × Except Fault (List Char)) :
    List Piece × Except Fault (List Char) :=
  (piece :: read.1, read.2)

/-- The parts of a string up to its closing quote, and the text after the quote. -/
def scanPieces : List Char → List Piece × Except Fault (List Char)
  | [] => ([], .error .ended)
  | '"' :: rest => ([], .ok rest)
  | '\\' :: rest =>
    match rest with
    | [] => ([], .error .ended)
    | 'u' :: a :: b :: c :: d :: rest =>
      match codeUnit? a b c d with
      | some code => pushPiece (.unit code) (scanPieces rest)
      | none => ([], .error .malformed)
    | 'u' :: rest => ([], .error (shortEscapeFault rest))
    | mark :: rest =>
      match escaped? mark with
      | some c => pushPiece (.char c) (scanPieces rest)
      | none => ([], .error .malformed)
  | c :: rest =>
    pushPiece (if c.toNat < 0x20 then .control c else .char c) (scanPieces rest)

/-- Reads a string after its opening quote. -/
def scanString (text : List Char) : Scan Quoted :=
  match scanPieces text with
  | (pieces, .ok rest) =>
    match Piece.text? false pieces with
    | some content => (.text (String.ofList content), some rest)
    | none => (.loose pieces none, some rest)
  | (pieces, .error fault) =>
    match Piece.text? true pieces with
    | some _ => (.broken fault, none)
    | none => (.loose pieces (some fault), none)

/-! ## Numbers -/

/-- The fault where a digit is missing. -/
def missingDigit : List Char → Fault
  | [] => .ended
  | _ :: _ => .malformed

/-- Reads the exponent after its mark. -/
def scanExponent (negative : Bool) (whole fraction text : List Char) : Scan Numeral :=
  let (isNegative, rest) := match text with
    | '+' :: rest => (false, rest)
    | '-' :: rest => (true, rest)
    | rest => (false, rest)
  match rest.takeWhile Char.isDigit with
  | [] => (.broken (missingDigit rest), none)
  | digits =>
    (.written ⟨negative, whole, fraction, some (isNegative, digits)⟩,
      some (rest.dropWhile Char.isDigit))

/-- Reads the exponent of a number, if there is one. -/
def scanAfterFraction (negative : Bool) (whole fraction : List Char) : List Char → Scan Numeral
  | 'e' :: rest => scanExponent negative whole fraction rest
  | 'E' :: rest => scanExponent negative whole fraction rest
  | rest => (.written ⟨negative, whole, fraction, none⟩, some rest)

/-- Reads what follows the digits in front of the point. -/
def scanAfterWhole (negative : Bool) (whole : List Char) : List Char → Scan Numeral
  | '.' :: rest =>
    match rest.takeWhile Char.isDigit with
    | [] => (.broken (missingDigit rest), none)
    | fraction => scanAfterFraction negative whole fraction (rest.dropWhile Char.isDigit)
  | rest => scanAfterFraction negative whole [] rest

/-- Reads a number after its sign; a zero in front stands alone. -/
def scanUnsigned (negative : Bool) (text : List Char) : Scan Numeral :=
  match text.takeWhile Char.isDigit with
  | [] => (.broken (missingDigit text), none)
  | '0' :: _ :: _ => (.broken .malformed, none)
  | whole => scanAfterWhole negative whole (text.dropWhile Char.isDigit)

/-- Reads a number. -/
def scanNumber : List Char → Scan Numeral
  | '-' :: rest => scanUnsigned true rest
  | text => scanUnsigned false text

/-! ## Values -/

mutual

/-- Reads a value. -/
def scanValue : Nat → List Char → Scan Node
  | 0, _ => (.absent .ended, none)
  | steps + 1, text =>
    match skipSpace text with
    | [] => (.absent .ended, none)
    | '"' :: rest => (scanString rest).map .string
    | '[' :: rest =>
      match skipSpace rest with
      | ']' :: rest => (.array .closed, some rest)
      | _ => (scanItems steps rest).map .array
    | '\x7b' :: rest =>
      match skipSpace rest with
      | '\x7d' :: rest => (.object .closed, some rest)
      | _ => (scanMembers steps rest).map .object
    | 'n' :: rest => scanWord .null ['u', 'l', 'l'] rest
    | 't' :: rest => scanWord (.boolean true) ['r', 'u', 'e'] rest
    | 'f' :: rest => scanWord (.boolean false) ['a', 'l', 's', 'e'] rest
    | c :: rest =>
      if c = '-' ∨ c.isDigit then (scanNumber (c :: rest)).map .number
      else (.absent .malformed, none)

/-- Reads an element of an array and all that follow it. -/
def scanItems : Nat → List Char → Scan Items
  | 0, _ => (.cut .ended, none)
  | steps + 1, text =>
    match scanValue steps text with
    | (head, none) => (.cons head (.cut .ended), none)
    | (head, some rest) =>
      match skipSpace rest with
      | ']' :: rest => (.cons head .closed, some rest)
      | ',' :: rest => (scanItems steps rest).map (.cons head)
      | [] => (.cons head (.cut .ended), none)
      | _ => (.cons head (.cut .malformed), none)

/-- Reads a member of an object and all that follow it. -/
def scanMembers : Nat → List Char → Scan Members
  | 0, _ => (.cut .ended, none)
  | steps + 1, text =>
    match skipSpace text with
    | '"' :: rest =>
      match scanString rest with
      | (key, none) => (.cons key (.absent .ended) (.cut .ended), none)
      | (key, some rest) =>
        match skipSpace rest with
        | ':' :: rest =>
          match scanValue steps rest with
          | (value, none) => (.cons key value (.cut .ended), none)
          | (value, some rest) =>
            match skipSpace rest with
            | '\x7d' :: rest => (.cons key value .closed, some rest)
            | ',' :: rest => (scanMembers steps rest).map (.cons key value)
            | [] => (.cons key value (.cut .ended), none)
            | _ => (.cons key value (.cut .malformed), none)
        | [] => (.cons key (.absent .ended) (.cut .ended), none)
        | _ => (.cons key (.absent .malformed) (.cut .malformed), none)
    | rest => (.unnamed (scanValue steps rest).1, none)

end

/-- A text as a tree. -/
structure Scanned where
  node : Node
  /-- Nothing but spaces follows the value. -/
  isWhole : Bool

/-- The number of steps that reading a text takes at most. -/
def stepsFor (text : List Char) : Nat :=
  2 * text.length + 2

/-- Reads the first value of a text. -/
def scan (text : String) : Scanned :=
  match scanValue (stepsFor text.toList) text.toList with
  | (node, none) => ⟨node, true⟩
  | (node, some rest) => ⟨node, (skipSpace rest).isEmpty⟩

end QueryPipeline.Json
