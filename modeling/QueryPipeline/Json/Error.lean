import QueryPipeline.Json.Node
import QueryPipeline.Json.Quantity
import QueryPipeline.Text.Quoted
import QueryPipeline.Double.Layout

/-!
# Errors of reading JSON

Reading fails at the first place where the text is not JSON (`ReadError.fault`) or where a value
has not the shape asked for (`ReadError.mismatch`). A mismatch is a cause with its data, which
`Mismatch.message` words. What the libraries that read JSON say besides is theirs and given as a
`Report`: the words for a text that is not JSON, those for the body of a typed value, and the place
in the text. `ReadError.display` puts the words of an error together.
-/

namespace QueryPipeline.Json

/-- What was found where something else was expected. -/
inductive Found where
  | null
  | boolean (b : Bool)
  | whole (n : Int)
  | double (x : Float)
  | text (content : String)
  | sequence
  | map

/-- A value that is JSON but has not the shape asked for. -/
inductive Mismatch where
  /-- A value of another kind. -/
  | wrongKind (found : Found) (expected : String)
  /-- A value of the right kind that is not allowed. -/
  | wrongContent (found : Found) (expected : String)
  | missingField (name : String)
  | duplicateField (name : String)
  | unknownField (name : String) (known : List String)
  | unknownVariant (name : String) (known : List String)
  /-- An array that ends before the field of the given index. -/
  | wrongLength (index : Nat) (expected : String)
  /-- A value that fits none of the forms of a choice. -/
  | noForm (choice : String)
  /-- A whole number above every signed number of 64 bits. -/
  | unsigned (n : Int)
  /-- A typed value whose body does not denote one. -/
  | invalidBody
  /-- A value that a rule beyond its shape refuses. -/
  | refused (reason : String)

/-- Why a text was not read. -/
inductive ReadError where
  | fault (f : Fault)
  | mismatch (m : Mismatch)

/-- The words for what was found. -/
def Found.message : Found → String
  | .null => "null"
  | .boolean b => "boolean `" ++ (if b then "true" else "false") ++ "`"
  | .whole n => "integer `" ++ String.ofList (Text.integer n) ++ "`"
  | .double x => "floating point `" ++ String.ofList (Double.json.text x) ++ "`"
  | .text content => "string " ++ Text.quoted content
  | .sequence => "sequence"
  | .map => "map"

/-- Names in backquotes, joined by `or`. -/
def alternatives (names : List String) : String :=
  " or ".intercalate (names.map fun name => "`" ++ name ++ "`")

/-- A number in a place: digits, with a value of 64 bits. -/
def isPlaceNumber (digits : List Char) : Bool :=
  (Text.natural? digits).any fun n => n < 0x10000000000000000

/-- The text is nothing but a place, by its line and column. -/
def isPlace (text : List Char) : Bool :=
  match " at line ".toList.isPrefixOf? text with
  | none => false
  | some rest =>
    match " column ".toList.isPrefixOf? (rest.dropWhile Char.isDigit) with
    | none => false
    | some column => isPlaceNumber (rest.takeWhile Char.isDigit) && isPlaceNumber column

/-- A text up to the place that stands at its end, if one does. -/
def withoutPlace : List Char → List Char
  | [] => []
  | c :: rest => if isPlace (c :: rest) then [] else c :: withoutPlace rest

/-- The words for a mismatch in full. -/
def Mismatch.words : Mismatch → String
  | .wrongKind found expected => "invalid type: " ++ found.message ++ ", expected " ++ expected
  | .wrongContent found expected => "invalid value: " ++ found.message ++ ", expected " ++ expected
  | .missingField name => "missing field `" ++ name ++ "`"
  | .duplicateField name => "duplicate field `" ++ name ++ "`"
  | .unknownField name known =>
    "unknown field `" ++ name ++ "`, expected " ++ alternatives known
  | .unknownVariant name known =>
    "unknown variant `" ++ name ++ "`, expected " ++ alternatives known
  | .wrongLength index expected =>
    "invalid length " ++ String.ofList (Text.natural index) ++ ", expected " ++ expected
  | .noForm choice => "data did not match any variant of untagged enum " ++ choice
  | .unsigned n => "cannot represent " ++ String.ofList (Text.integer n) ++ " as a signed number"
  | .invalidBody => "BSON error"
  | .refused reason => reason

/-- The words for a mismatch. The place of an error is told apart from its words, so a place at
their end, even one that the client wrote, is no part of them. -/
def Mismatch.message (m : Mismatch) : String :=
  String.ofList (withoutPlace m.words.toList)

/-- What the libraries that read JSON say of an error in a text. -/
structure Report where
  /-- The words for a text that is not JSON. -/
  fault : String
  /-- What follows the name of the library of typed values, for a body that denotes none. -/
  body : String
  /-- The line of the error; lines count from 1, and 0 stands for no place. -/
  line : Nat
  column : Nat
deriving Inhabited

/-- The place of an error, at the end of its words. -/
def Report.place (report : Report) : String :=
  if report.line = 0 then ""
  else " at line " ++ String.ofList (Text.natural report.line) ++
    " column " ++ String.ofList (Text.natural report.column)

/-- What follows the words for a mismatch: of the body of a typed value, why it denotes none. -/
def Report.detail (report : Report) : Mismatch → String
  | .invalidBody => report.body
  | _ => ""

/-- The words for an error of reading, with the place of the error at their end. -/
def ReadError.display (report : Report) : ReadError → String
  | .fault _ => report.fault ++ report.place
  | .mismatch m => m.message ++ report.detail m ++ report.place

/-- The name of a quantity in messages. -/
def Quantity.found : Quantity → Found
  | .whole n => .whole n
  | .double x => .double x

end QueryPipeline.Json
