import QueryPipeline.Text.Digits
import QueryPipeline.Text.Hex

/-!
# Writing JSON

The pieces of compact JSON text: strings, and sequences and objects of parts already written. In a
string the quote, the backslash and the control characters are escaped and nothing else is.
-/

namespace QueryPipeline.Json

/-- One character of a string as written. -/
def writeChar (c : Char) : List Char :=
  match c with
  | '"' => ['\\', '"']
  | '\\' => ['\\', '\\']
  | '\x08' => ['\\', 'b']
  | '\x0c' => ['\\', 'f']
  | '\n' => ['\\', 'n']
  | '\r' => ['\\', 'r']
  | '\t' => ['\\', 't']
  | c =>
    if c.toNat < 0x20 then ['\\', 'u', '0', '0'] ++ Hex.encodeByte (UInt8.ofNat c.toNat) else [c]

/-- A string in quotes. -/
def writeText (text : String) : List Char :=
  '"' :: (text.toList.flatMap writeChar ++ ['"'])

/-- Parts with commas between them. -/
def joinParts : List (List Char) → List Char
  | [] => []
  | [part] => part
  | part :: rest => part ++ ',' :: joinParts rest

/-- An array of written elements. -/
def writeArray (elements : List (List Char)) : List Char :=
  '[' :: (joinParts elements ++ [']'])

/-- A member with a written value. -/
def writeMember (name : String) (value : List Char) : List Char :=
  writeText name ++ ':' :: value

/-- An object of written members. -/
def writeObject (members : List (List Char)) : List Char :=
  '\x7b' :: (joinParts members ++ ['\x7d'])

/-- An object of one member. -/
def writeSingle (name : String) (value : List Char) : List Char :=
  writeObject [writeMember name value]

/-- An array of whole numbers. -/
def writeBytes (bytes : List UInt8) : List Char :=
  writeArray (bytes.map fun b => Text.natural b.toNat)

end QueryPipeline.Json
