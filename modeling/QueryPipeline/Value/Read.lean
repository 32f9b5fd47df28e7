import QueryPipeline.Json.Decode
import QueryPipeline.Value.Display

/-!
# Values from JSON

`readValue` maps JSON to values. A whole number takes the narrower integer type that holds it if it
has no sign, and 64 bits if it has one. The members of an object become a document, unless one of
their keys announces a typed value, as `$oid` does: then the object is that value, what was read
before the key is dropped, and nothing may follow (`typedReader?`). `readDocument` reads where only
a document will do.
-/

namespace QueryPipeline

open Json

/-! ## Bodies of typed values -/

/-- A text that a reader turns into a value, or else refuses. -/
def readTextAs {α : Type} (ofText? : String → Option α) (expected : String) : Reader α :=
  fun room node => do
    let text ← readText room node
    match ofText? text with
    | some a => return a
    | none => refuse (.wrongContent (.text text) expected)

/-- A record of two fields, both required, that allows no other member. -/
def readPair {α β : Type} (expected first second : String) (readFirst : Reader α)
    (readSecond : Reader β) : Reader (α × β) :=
  readRecord expected
    (fun room items => do
      let missing (index : Nat) := Mismatch.wrongLength index (expected ++ " with 2 elements")
      let (a, items) ← items.nextOrRefuse (missing 0) (readFirst room)
      let (b, items) ← items.nextOrRefuse (missing 1) (readSecond room)
      return ((a, b), items))
    (fun room members => do
      let field (name : String) (s : Option α × Option β) : FieldStep (Option α × Option β) :=
        if name = first then
          .once s.1 first fun node => (readFirst room node).map fun a => (some a, s.2)
        else if name = second then
          .once s.2 second fun node => (readSecond room node).map fun b => (s.1, some b)
        else .refuse (.unknownField name [first, second])
      match ← members.readFields field (none, none) with
      | (none, _) => refuse (.missingField first)
      | (_, none) => refuse (.missingField second)
      | (some a, some b) => return (a, b))

/-- A record of one required field that allows no other member. -/
def readSingle {α : Type} (expected name : String) (reader : Reader α) : Reader α :=
  readRecord expected
    (fun room items =>
      items.nextOrRefuse (.wrongLength 0 (expected ++ " with 1 element")) (reader room))
    (fun room members => do
      let field (key : String) (s : Option α) : FieldStep (Option α) :=
        if key = name then .once s name fun node => (reader room node).map some
        else .refuse (.unknownField key [name])
      match ← members.readFields field none with
      | none => refuse (.missingField name)
      | some a => return a)

/-- The identifier that twenty-four digits of base sixteen denote. -/
def ObjectId.ofText? (text : String) : Option ObjectId := do
  let bytes ← Hex.decode? text.toList
  if h : bytes.length = 12 then return ⟨bytes, h⟩ else none

/-- Reads an identifier; a composite value is entered before it is refused. -/
def readObjectId : Reader ObjectId
  | 0, .array _ => malformed
  | 0, .object _ => malformed
  | room, .string s =>
    readTextAs ObjectId.ofText? "24-character, big-endian hex string" room (.string s)
  | _, node => wrongKind "hexstring or byte array" node

/-- A value that must not be missing, as the body of a typed value has it. -/
def orInvalidBody {α : Type} : Option α → Except ReadError α
  | some a => .ok a
  | none => refuse .invalidBody

/-- Reads a double as text; three names stand for the special values. -/
def doubleOfText? (text : String) : Option Float :=
  Double.ofText? text.toList

/-- Reads the body of a binary value. -/
def readBinary : Reader Value := fun room node => do
  let (base64, subtype) ←
    readPair "struct BinaryBody" "base64" "subType" readText readText room node
  let bytes ← orInvalidBody (Base64.decode? base64.toList)
  match Hex.decode? subtype.toList with
  | some [code] => return .binary code bytes
  | _ => refuse .invalidBody

/-- The sixteen bytes of five groups of digits with hyphens between them. -/
def hyphenated? (text : List Char) : Option (List UInt8) :=
  let groups := [(0, 8), (9, 4), (14, 4), (19, 4), (24, 12)]
  let hyphens := [8, 13, 18, 23].all fun i => text[i]? == some '-'
  if text.length = 36 ∧ hyphens then
    Hex.decode? (groups.flatMap fun group => (text.drop group.1).take group.2)
  else none

/-- The mark of an identifier that is written as a name; its letters may be of either case. -/
def uuidNameMark : List Char := ['u', 'r', 'n', ':', 'u', 'u', 'i', 'd', ':']

/-- The bytes of a universally unique identifier: digits alone, hyphenated, in braces or as a
name. -/
def uuid? (text : List Char) : Option (List UInt8) :=
  if text.length = 32 then Hex.decode? text
  else if text.length = 38 ∧ text.head? = some '\x7b' ∧ text.getLast? = some '\x7d' then
    hyphenated? ((text.drop 1).take 36)
  else if text.length = 45 ∧ (text.take 9).map Char.toLower = uuidNameMark then
    hyphenated? (text.drop 9)
  else hyphenated? text

/-- Reads a universally unique identifier as a binary value. -/
def readUuid : Reader Value := fun room node => do
  let text ← readText room node
  let bytes ← orInvalidBody (uuid? text.toList)
  return .binary 4 bytes

/-- Reads a number of 32 bits without sign. -/
def readWord : Reader UInt32 := fun room node => do
  let n ← readWhole 0 0xffffffff "u32" room node
  return UInt32.ofNat n.toNat

/-- Reads the body of a timestamp. -/
def readTimestamp : Reader Value := fun room node => do
  let (seconds, increment) ← readPair "struct TimestampBody" "t" "i" readWord readWord room node
  return .timestamp seconds increment

/-- Letters in ascending order. -/
def sortLetters (text : String) : String :=
  String.ofList (text.toList.mergeSort fun a b => a ≤ b)

/-- Reads the body of a regular expression; neither part may hold the character zero. -/
def readRegex : Reader Value := fun room node => do
  let (pattern, options) ←
    readPair "struct RegexBody" "pattern" "options" readText readText room node
  if (pattern ++ options).toList.contains '\x00' then refuse .invalidBody
  else return .regex pattern (sortLetters options)

/-- Reads the body of a pointer to a record. -/
def readDbPointer : Reader Value := fun room node => do
  let (space, id) ← readPair "struct DbPointerBody" "$ref" "$id" readText
    (readSingle "struct ObjectId" "$oid" readText) room node
  let id ← orInvalidBody (ObjectId.ofText? id)
  return .dbPointer space id

/-- The forms of a moment: the text of a number of milliseconds, a date, or the number itself. -/
inductive MomentForm where
  | numberText (text : String)
  | date (text : String)
  | milliseconds (n : Int)

/-- The first form that a value has. -/
def momentForm? (room : Nat) (node : Node) : Option MomentForm :=
  match readSingle "struct Int64" "$numberLong" readText room node with
  | .ok text => some (.numberText text)
  | .error _ =>
    match readText room node with
    | .ok text => some (.date text)
    | .error _ =>
      match readWhole (-0x8000000000000000) 0x7fffffffffffffff "i64" room node with
      | .ok n => some (.milliseconds n)
      | .error _ => none

/-- Reads a moment in one of its forms. -/
def readMoment : Reader Value := fun room node => do
  node.check room
  match momentForm? room node with
  | none => refuse (.noForm "DateTimeBody")
  | some (.numberText text) => .dateTime <$> orInvalidBody (Text.int64? text.toList)
  | some (.date text) => .dateTime <$> orInvalidBody (Moment.ofText? text)
  | some (.milliseconds n) => return .dateTime (Int64.ofInt n)

/-- Reads the number one, which stands for a value without a body. -/
def readOne (value : Value) : Reader Value := fun room node => do
  let n ← readWhole 0 255 "u8" room node
  if n = 1 then return value else refuse .invalidBody

/-- Reads the truth value that stands for the undefined value. -/
def readUndefined : Reader Value
  | _, .boolean true => .ok .undefined
  | _, .boolean false => refuse .invalidBody
  | _, node => wrongKind "a boolean" node

/-- Reads bytes: numbers in an array, or the bytes of a string, which need not be a text. -/
def readBytes : Reader (List UInt8)
  | _, .string s => orFault s.bytes
  | 0, .array _ => malformed
  | room + 1, .array items => do
    let numbers ← items.readAll (readWhole 0 255 "u8" room)
    return numbers.map fun n => UInt8.ofNat n.toNat
  | _, node => wrongKind "byte array" node

/-- Reads the sixteen bytes of a decimal number. -/
def readDecimalBytes : Reader Value := fun room node => do
  let bytes ← readBytes room node
  if h : bytes.length = 16 then return .decimal ⟨bytes, h⟩
  else refuse (.refused "could not convert slice to array")

/-- The reader of the body that a key announces; code and scope, which may accompany each other,
are not among these keys. -/
def typedReader? : String → Option (Reader Value)
  | "$oid" => some fun room node => .objectId <$> readObjectId room node
  | "$symbol" => some fun room node => .symbol <$> readText room node
  | "$numberInt" => some fun room node => .int32 <$>
      readTextAs (fun t => Text.int32? t.toList) "32-bit signed integer as a string" room node
  | "$numberLong" => some fun room node => .int64 <$>
      readTextAs (fun t => Text.int64? t.toList) "64-bit signed integer as a string" room node
  | "$numberDouble" => some fun room node => .double <$>
      readTextAs doubleOfText? "64-bit signed integer as a string" room node
  | "$binary" => some readBinary
  | "$uuid" => some readUuid
  | "$timestamp" => some readTimestamp
  | "$regularExpression" => some readRegex
  | "$dbPointer" => some readDbPointer
  | "$date" => some readMoment
  | "$minKey" => some (readOne .minKey)
  | "$maxKey" => some (readOne .maxKey)
  | "$undefined" => some readUndefined
  | "$numberDecimal" => some fun room node => .decimal <$>
      readTextAs Decimal128.ofText? "decimal128 as a string" room node
  | "$numberDecimalBytes" => some readDecimalBytes
  | _ => none

/-! ## Values -/

/-- The value of a number. -/
def valueOfQuantity : Quantity → Except ReadError Value
  | .double x => .ok (.double x)
  | .whole n =>
    if n < 0 then .ok (.int64 (Int64.ofInt n))
    else if n < 0x80000000 then .ok (.int32 (Int32.ofInt n))
    else if n < 0x8000000000000000 then .ok (.int64 (Int64.ofInt n))
    else refuse (.unsigned n)

/-- The document that a value must be where only a document will do. -/
def documentOf : Value → Except ReadError Document
  | .document entries => .ok entries
  | typed =>
    refuse (.wrongKind .map ("expected document, found extended JSON data type: " ++ typed.display))

mutual

/-- Reads a value. -/
def readValue : Nat → Node → Except ReadError Value
  | _, .absent fault => .error (.fault fault)
  | _, .misspelled fault => .error (.fault fault)
  | _, .null => .ok .null
  | _, .boolean b => .ok (.boolean b)
  | _, .number n =>
    match n.read with
    | .ok q => valueOfQuantity q
    | .error fault => .error (.fault fault)
  | _, .string s =>
    match s.read with
    | .ok text => .ok (.string text)
    | .error fault => .error (.fault fault)
  | 0, .array _ => malformed
  | room + 1, .array items =>
    match readElements room items with
    | .ok values => .ok (.array values)
    | .error e => .error e
  | 0, .object _ => malformed
  | room + 1, .object members => readMembers room [] members

/-- Reads the elements of an array. -/
def readElements : Nat → Items → Except ReadError (List Value)
  | _, .closed => .ok []
  | _, .cut fault => .error (.fault fault)
  | room, .cons head tail =>
    match readValue room head with
    | .error e => .error e
    | .ok v =>
      match readElements room tail with
      | .error e => .error e
      | .ok rest => .ok (v :: rest)

/-- Reads the members of an object, after those that `entries` holds. -/
def readMembers : Nat → Document → Members → Except ReadError Value
  | _, entries, .closed => .ok (.document entries)
  | _, _, .cut fault => .error (.fault fault)
  | _, _, .unnamed node => .error (.fault node.faultAsName)
  | room, entries, .cons key value tail =>
    match key.read with
    | .error fault => .error (.fault fault)
    | .ok "$code" =>
      match readText room value with
      | .error e => .error e
      | .ok text =>
        match tail with
        | .closed => .ok (.code text)
        | .cut fault => .error (.fault fault)
        | .unnamed node => .error (.fault node.faultAsName)
        | .cons key value rest =>
          match key.read with
          | .error fault => .error (.fault fault)
          | .ok "$scope" =>
            match readScope room value with
            | .error e => .error e
            | .ok scope => rest.finish.map fun _ => .codeWithScope text scope
          | .ok name => refuse (.unknownField name ["$scope"])
    | .ok "$scope" =>
      match readScope room value with
      | .error e => .error e
      | .ok scope =>
        match tail with
        | .closed => refuse (.missingField "$code")
        | .cut fault => .error (.fault fault)
        | .unnamed node => .error (.fault node.faultAsName)
        | .cons key value rest =>
          match key.read with
          | .error fault => .error (.fault fault)
          | .ok "$code" =>
            match readText room value with
            | .error e => .error e
            | .ok text => rest.finish.map fun _ => .codeWithScope text scope
          | .ok name => refuse (.unknownField name ["$code"])
    | .ok name =>
      match typedReader? name with
      | some reader =>
        match reader room value with
        | .error e => .error e
        | .ok typed => tail.finish.map fun _ => typed
      | none =>
        match readValue room value with
        | .error e => .error e
        | .ok v => readMembers room (entries.put name v) tail

/-- Reads the scope of a code value, a document. -/
def readScope : Nat → Node → Except ReadError Document
  | 0, .object _ => malformed
  | room + 1, .object members =>
    match readMembers room [] members with
    | .error e => .error e
    | .ok v => documentOf v
  | _, node => wrongKind "a Bson" node

end

/-- Reads a document. -/
def readDocument : Reader Document := readScope

/-- Reads the members of an object as a table of values; a later member replaces an earlier one of
the same name. -/
def Json.Members.readTable (room : Nat) : Keyed Value → Members → Except ReadError (Keyed Value)
  | table, .closed => .ok table
  | _, .cut fault => .error (.fault fault)
  | _, .unnamed node => .error (.fault node.faultAsName)
  | table, .cons key value tail => do
    let name ← orFault key.read
    let v ← readValue room value
    tail.readTable room (table.put name v)

/-- Reads a table of values by name. -/
def readTable : Reader (Keyed Value)
  | 0, .object _ => malformed
  | room + 1, .object members => members.readTable room []
  | _, node => wrongKind "a map" node

end QueryPipeline
