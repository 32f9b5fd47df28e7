import QueryPipeline.Value.Decimal128
import QueryPipeline.Value.Moment
import QueryPipeline.Double.Layout
import QueryPipeline.Text.Hex
import QueryPipeline.Text.Base64

/-!
# Values in messages

`Value.display` shows a value in a message. The text is for people: strings stand in quotes without
escapes, so different values may look the same.
-/

namespace QueryPipeline

namespace Value

/-- A text in quotes, without escapes. -/
def inQuotes (text : String) : String :=
  "\"" ++ text ++ "\""

/-- The digits of an identifier. -/
def displayId (id : ObjectId) : String :=
  String.ofList (Hex.encode id.bytes)

mutual

/-- A value as messages show it. -/
def display : Value → String
  | .null => "null"
  | .boolean b => if b then "true" else "false"
  | .string text => inQuotes text
  | .int32 n => String.ofList (Text.integer n.toInt)
  | .int64 n => String.ofList (Text.integer n.toInt)
  | .double x => String.ofList (Double.plain.text x)
  | .array items => "[" ++ ", ".intercalate (displayItems items) ++ "]"
  | .document entries =>
    if entries.isEmpty then "\x7b\x7d"
    else "\x7b " ++ ", ".intercalate (displayEntries entries) ++ " \x7d"
  | .objectId id => "ObjectId(" ++ inQuotes (displayId id) ++ ")"
  | .dateTime ms => "DateTime(" ++ inQuotes (Moment.text ms) ++ ")"
  | .binary subtype bytes =>
    "Binary(0x" ++ String.ofList (Nat.toDigits 16 subtype.toNat) ++ ", " ++
      String.ofList (Base64.encode bytes) ++ ")"
  | .decimal d => d.text
  | .code text => text
  | .codeWithScope text _ => text
  | .symbol text => "Symbol(" ++ inQuotes text ++ ")"
  | .timestamp seconds increment =>
    "Timestamp(" ++ toString seconds.toNat ++ ", " ++ toString increment.toNat ++ ")"
  | .regex pattern options => "/" ++ pattern ++ "/" ++ options
  | .dbPointer space id => "DbPointer(" ++ space ++ ", " ++ displayId id ++ ")"
  | .undefined => "undefined"
  | .maxKey => "MaxKey"
  | .minKey => "MinKey"

/-- The elements of an array, each as messages show it. -/
def displayItems : List Value → List String
  | [] => []
  | v :: rest => v.display :: displayItems rest

/-- The entries of a document, each as messages show it. -/
def displayEntries : List (String × Value) → List String
  | [] => []
  | (key, v) :: rest => (inQuotes key ++ ": " ++ v.display) :: displayEntries rest

end

end Value

end QueryPipeline
