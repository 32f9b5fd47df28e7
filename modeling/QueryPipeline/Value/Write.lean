import QueryPipeline.Json.Write
import QueryPipeline.Value.Display

/-!
# Values as JSON

`Value.write` is the JSON text of a value. Numbers of all widths are plain JSON numbers, a double
that is not finite is `null`, bytes of the generic subtype are an array of numbers, and each other
typed value is an object whose one key names the type.
-/

namespace QueryPipeline

open Json

namespace Value

/-- A double as a JSON number; what JSON cannot write is null. -/
def writeDouble (x : Float) : List Char :=
  if x.isNaN || x.isInf then ['n', 'u', 'l', 'l'] else Double.json.text x

/-- An identifier as JSON. -/
def writeId (id : ObjectId) : List Char :=
  writeSingle "$oid" (writeText (String.ofList (Hex.encode id.bytes)))

/-- Bytes as JSON. -/
def writeBinary (subtype : UInt8) (bytes : List UInt8) : List Char :=
  if subtype = 0 then writeBytes bytes
  else writeSingle "$binary" (writeObject
    [writeMember "base64" (writeText (String.ofList (Base64.encode bytes))),
      writeMember "subType" (writeText (String.ofList (Hex.encodeByte subtype)))])

mutual

/-- A value as JSON. -/
def write : Value → List Char
  | .null => ['n', 'u', 'l', 'l']
  | .boolean true => ['t', 'r', 'u', 'e']
  | .boolean false => ['f', 'a', 'l', 's', 'e']
  | .string text => writeText text
  | .int32 n => Text.integer n.toInt
  | .int64 n => Text.integer n.toInt
  | .double x => writeDouble x
  | .array items => writeArray (writeItems items)
  | .document entries => writeObject (writeEntries entries)
  | .objectId id => writeId id
  | .dateTime ms =>
    writeSingle "$date"
      (writeSingle "$numberLong" (writeText (String.ofList (Text.integer ms.toInt))))
  | .binary subtype bytes => writeBinary subtype bytes
  | .decimal d => writeSingle "$numberDecimal" (writeText d.text)
  | .code text => writeSingle "$code" (writeText text)
  | .codeWithScope text scope =>
    writeObject [writeMember "$code" (writeText text),
      writeMember "$scope" (writeObject (writeEntries scope))]
  | .symbol text => writeSingle "$symbol" (writeText text)
  | .timestamp seconds increment =>
    writeSingle "$timestamp" (writeObject [writeMember "t" (Text.natural seconds.toNat),
      writeMember "i" (Text.natural increment.toNat)])
  | .regex pattern options =>
    writeSingle "$regularExpression" (writeObject [writeMember "pattern" (writeText pattern),
      writeMember "options" (writeText options)])
  | .dbPointer space id =>
    writeSingle "$dbPointer" (writeObject [writeMember "$ref" (writeText space),
      writeMember "$id" (writeId id)])
  | .undefined => writeSingle "$undefined" ['t', 'r', 'u', 'e']
  | .maxKey => writeSingle "$maxKey" ['1']
  | .minKey => writeSingle "$minKey" ['1']

/-- The elements of an array, each as JSON. -/
def writeItems : List Value → List (List Char)
  | [] => []
  | v :: rest => v.write :: writeItems rest

/-- The entries of a document, each as a member. -/
def writeEntries : List (String × Value) → List (List Char)
  | [] => []
  | (key, v) :: rest => writeMember key v.write :: writeEntries rest

end

end Value

/-- A document as JSON. -/
def Document.write (d : Document) : List Char :=
  (Value.document d).write

end QueryPipeline
