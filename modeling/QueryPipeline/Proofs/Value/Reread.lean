import QueryPipeline.Proofs.Json.Quantity
import QueryPipeline.Proofs.Keyed
import QueryPipeline.Proofs.Text.Base64
import QueryPipeline.Proofs.Value.Decimal128
import QueryPipeline.Proofs.Value.Depth
import QueryPipeline.Proofs.Value.Node

/-!
# Values read back
-/

namespace QueryPipeline

open Json

/-! ## What reading makes of a written value -/

/-- The value that a whole number is read as: 32 bits if they hold it and it has no sign. -/
def wholeValue (n : Int) : Value :=
  if n < 0 then .int64 (Int64.ofInt n)
  else if n < 0x80000000 then .int32 (Int32.ofInt n)
  else .int64 (Int64.ofInt n)

namespace Value

mutual

/-- What is read from the text of a value. -/
def reread : Value → Value
  | .int32 n => wholeValue n.toInt
  | .int64 n => wholeValue n.toInt
  | .double x => if x.isNaN || x.isInf then .null else .double (Double.reread x)
  | .array items => .array (rereadItems items)
  | .document entries => .document (rereadEntries entries)
  | .binary subtype bytes =>
    if subtype = 0 then .array (bytes.map fun b => wholeValue b.toNat) else .binary subtype bytes
  | .decimal d => .decimal d.canonical
  | .codeWithScope text scope => .codeWithScope text (rereadEntries scope)
  | v => v

/-- What is read from the text of the elements of an array. -/
def rereadItems : List Value → List Value
  | [] => []
  | v :: rest => v.reread :: rereadItems rest

/-- What is read from the text of the entries of a document. -/
def rereadEntries : List (String × Value) → List (String × Value)
  | [] => []
  | (key, v) :: rest => (key, v.reread) :: rereadEntries rest

end

mutual

/-- A property that a value has and that every value in it has. -/
def Throughout (P : Value → Prop) : Value → Prop
  | .array items => P (.array items) ∧ ThroughoutItems P items
  | .document entries => P (.document entries) ∧ ThroughoutEntries P entries
  | .codeWithScope text scope => P (.codeWithScope text scope) ∧ ThroughoutEntries P scope
  | v => P v

/-- A property that the elements of an array have throughout. -/
def ThroughoutItems (P : Value → Prop) : List Value → Prop
  | [] => True
  | v :: rest => v.Throughout P ∧ ThroughoutItems P rest

/-- A property that the values of a document have throughout. -/
def ThroughoutEntries (P : Value → Prop) : List (String × Value) → Prop
  | [] => True
  | (_, v) :: rest => v.Throughout P ∧ ThroughoutEntries P rest

end

end Value

/-- What is read from the text of a document. -/
def Document.reread (d : Document) : Document :=
  Value.rereadEntries d

/-- The names of the members that announce a typed value. -/
def typedKeys : List String :=
  ["$code", "$scope", "$oid", "$symbol", "$numberInt", "$numberLong", "$numberDouble", "$binary",
    "$uuid", "$timestamp", "$regularExpression", "$dbPointer", "$date", "$minKey", "$maxKey",
    "$undefined", "$numberDecimal", "$numberDecimalBytes"]

/-- Keys that are read as keys: no key occurs twice and none announces a typed value. -/
structure Document.PlainKeys (d : Document) : Prop where
  distinct : d.Distinct
  plain : ∀ key ∈ Keyed.keys d, key ∉ typedKeys

/-- What the text of a value does not change beyond its leaves: the keys are read as keys, and a
regular expression is one that can be read. -/
def Value.Legible : Value → Prop
  | .document entries => Document.PlainKeys entries
  | .codeWithScope _ scope => Document.PlainKeys scope
  | .regex pattern options =>
    (pattern ++ options).toList.contains '\x00' = false ∧ sortLetters options = options
  | _ => True

/-! ## Bodies of typed values -/

section
variable {α β : Type} {room : Nat}

/-- A record of two fields is read from an object of them. -/
theorem readPair_object {expected first second : String} {readFirst : Reader α}
    {readSecond : Reader β} {node other : Node} {a : α} {b : β} (hne : second ≠ first)
    (ha : readFirst room node = .ok a) (hb : readSecond room other = .ok b) :
    readPair expected first second readFirst readSecond (room + 1)
      (.object (.ofList [(first, node), (second, other)])) = .ok (a, b) := by
  simp [readPair, readRecord, Members.ofList, Members.readFields, Quoted.read, orFault,
    FieldStep.once, ha, hb, hne, bind, Except.bind, Except.map, pure, Except.pure]

/-- A record of one field is read from an object of it. -/
theorem readSingle_object {expected name : String} {reader : Reader α} {node : Node} {a : α}
    (ha : reader room node = .ok a) :
    readSingle expected name reader (room + 1) (.single name node) = .ok a := by
  simp [readSingle, readRecord, Node.single, Members.ofList, Members.readFields, Quoted.read, orFault,
    FieldStep.once, ha, bind, Except.bind, Except.map, pure, Except.pure]

end

/-- A natural number within the bounds of a reader is read as it is. -/
theorem readWhole_ofNatural {low high : Int} {expected : String} {room n : Nat} (hlow : low ≤ n)
    (hhigh : n ≤ high) (small : n < 0x10000000000000000) :
    readWhole low high expected room (.number (.ofNatural n)) = .ok n := by
  simp [readWhole, read_ofNatural small, hlow, hhigh]

/-- A number of 32 bits is read as it is. -/
theorem readWord_ofNatural (room : Nat) (n : UInt32) :
    readWord room (.number (.ofNatural n.toNat)) = .ok n := by
  have bound := n.toNat_lt
  rw [readWord, readWhole_ofNatural (by omega) (by omega) (by omega)]
  simp [bind, Except.bind, pure, Except.pure]

/-- An identifier is read from its digits. -/
theorem ofText?_encode (id : ObjectId) :
    ObjectId.ofText? (String.ofList (Hex.encode id.bytes)) = some id := by
  simp [ObjectId.ofText?, Hex.decode?_encode, id.length_bytes]

/-- Milliseconds are read from their digits. -/
theorem int64?_integer (n : Int64) : Text.int64? (Text.integer n.toInt) = some n := by
  have low := n.le_toInt
  have high := n.toInt_lt
  rw [Text.int64?, Text.integer?_integer, Option.bind_some, if_pos (by omega), Int64.ofInt_toInt]

/-! ## Values -/

/-- A name that announces nothing has no reader. -/
theorem typedReader?_eq_none {name : String} (h : name ∉ typedKeys) : typedReader? name = none := by
  unfold typedReader?
  split <;> first | rfl | exact absurd (by decide) h

/-- A member whose key announces nothing is an entry. -/
theorem readMembers_plain {room : Nat} {entries : Document} {key : String} {node : Node}
    {tail : Members} {v : Value} (plain : key ∉ typedKeys) (read : readValue room node = .ok v) :
    readMembers room entries (.cons (.text key) node tail) =
      readMembers room (entries.put key v) tail := by
  rw [readMembers, Quoted.read]
  split
  · next h => cases h
  · next h =>
    cases h
    exact absurd (by decide) plain
  · next h =>
    cases h
    exact absurd (by decide) plain
  · next name _ _ h =>
    cases h
    rw [typedReader?_eq_none plain]
    dsimp only
    rw [read]

/-- An object of one member whose key announces a typed value is that value. -/
theorem readValue_single {room : Nat} {reader : Reader Value} {node : Node} {typed : Value}
    (key : String) (announced : typedReader? key = some reader)
    (read : reader room node = .ok typed) :
    readValue (room + 1) (.single key node) = .ok typed := by
  rw [Node.single, readValue, Members.ofList]
  refine readMembers_cons_eq_ok_iff.2 (.typed ?_ ?_ announced read)
  · rintro rfl
    cases announced
  · rintro rfl
    cases announced

/-- A whole number is read as the value that it is read as. -/
theorem readValue_ofInteger {room : Nat} {n : Int} (low : -0x8000000000000000 ≤ n)
    (high : n < 0x8000000000000000) :
    readValue room (.number (.ofInteger n)) = .ok (wholeValue n) := by
  rw [readValue, read_ofInteger low (by omega)]
  simp only [valueOfQuantity, wholeValue, high, if_true]
  split
  · rfl
  · split
    · rfl
    · rfl

/-- A double is read as it reads back. -/
theorem readValue_double (room : Nat) (x : Float) :
    readValue room (Value.double x).node = .ok (Value.double x).reread := by
  rw [Value.node, Value.reread]
  split
  · rw [readValue]
  · next finite =>
    rw [readValue, Double.read_numeral (Bool.eq_false_iff.2 finite)]
    rfl

/-- Bytes are read as numbers. -/
theorem readElements_bytes (room : Nat) (bytes : List UInt8) :
    readElements room (.ofList (bytes.map fun b => .number (.ofNatural b.toNat))) =
      .ok (bytes.map fun b => wholeValue b.toNat) := by
  induction bytes with
  | nil => rw [List.map_nil, Items.ofList, readElements, List.map_nil]
  | cons b rest ih =>
    have bound := b.toNat_lt
    have same : Numeral.ofNatural b.toNat = .ofInteger b.toNat := by
      simp [Numeral.ofInteger, Numeral.ofNatural]
    rw [List.map_cons, Items.ofList, readElements, same, readValue_ofInteger (by omega) (by omega)]
    dsimp only
    rw [ih]
    rfl

/-- Bytes are read as bytes, or as numbers if they are of the generic subtype. -/
theorem readValue_binary {room : Nat} {subtype : UInt8} {bytes : List UInt8}
    (deep : (binaryNode subtype bytes).depth ≤ room) :
    readValue room (binaryNode subtype bytes) = .ok (Value.binary subtype bytes).reread := by
  unfold binaryNode at deep ⊢
  rw [Value.reread]
  split at deep
  · next generic =>
    rw [Node.depth] at deep
    obtain ⟨inner, rfl⟩ := Nat.exists_eq_add_of_lt (Nat.lt_of_lt_of_le (Nat.succ_pos _) deep)
    rw [Nat.zero_add, if_pos generic, if_pos generic, readValue, readElements_bytes]
  · next typed =>
    rw [if_neg typed, if_neg typed]
    simp only [Node.depth_single, Node.depth_pair, Node.depth_ofText] at deep
    obtain ⟨inner, rfl⟩ := Nat.exists_eq_add_of_le' deep
    have subtypeRead : Hex.decode? (Hex.encodeByte subtype) = some [subtype] :=
      Hex.decode?_encode [subtype]
    have body : readPair "struct BinaryBody" "base64" "subType" readText readText (inner + 1)
        (.object (.ofList [("base64", .ofText (String.ofList (Base64.encode bytes))),
          ("subType", .ofText (String.ofList (Hex.encodeByte subtype)))])) =
        .ok (String.ofList (Base64.encode bytes), String.ofList (Hex.encodeByte subtype)) :=
      readPair_object (by decide) rfl rfl
    refine readValue_single "$binary" rfl ?_
    simp [readBinary, body, Base64.decode?_encode, subtypeRead, orInvalidBody, bind, Except.bind,
      pure, Except.pure]

/-- An identifier is read as it is. -/
theorem readValue_objectId {room : Nat} (id : ObjectId) (deep : id.node.depth ≤ room) :
    readValue room id.node = .ok (.objectId id) := by
  unfold ObjectId.node at deep ⊢
  rw [Node.depth_single] at deep
  obtain ⟨inner, rfl⟩ := Nat.exists_eq_add_of_le' deep
  refine readValue_single "$oid" rfl ?_
  have read : readObjectId inner (.ofText (String.ofList (Hex.encode id.bytes))) = .ok id := by
    simp [Node.ofText, readObjectId, readTextAs, readText, Quoted.read, orFault, ofText?_encode,
      bind, Except.bind, pure, Except.pure]
  rw [read]
  rfl

/-- A moment is read from its milliseconds. -/
theorem readValue_dateTime {room : Nat} (ms : Int64)
    (deep : (Value.dateTime ms).node.depth ≤ room) :
    readValue room (Value.dateTime ms).node = .ok (.dateTime ms) := by
  rw [Value.node] at deep ⊢
  simp only [Node.depth_single, Node.depth_ofText] at deep
  obtain ⟨inner, rfl⟩ := Nat.exists_eq_add_of_le' deep
  refine readValue_single "$date" rfl ?_
  have number : readSingle "struct Int64" "$numberLong" readText (inner + 1)
      (.single "$numberLong" (.ofText (String.ofList (Text.integer ms.toInt)))) =
        .ok (String.ofList (Text.integer ms.toInt)) :=
    readSingle_object rfl
  have check : (Node.single "$numberLong"
      (.ofText (String.ofList (Text.integer ms.toInt)))).check (inner + 1) = .ok () := by
    simp [Node.single, Members.ofList, Node.ofText, Node.check, Members.check, Quoted.read, orFault,
      Except.map, bind, Except.bind]
  have form : momentForm? (inner + 1) (.single "$numberLong"
      (.ofText (String.ofList (Text.integer ms.toInt)))) =
        some (.numberText (String.ofList (Text.integer ms.toInt))) := by
    rw [momentForm?, number]
  change readMoment (inner + 1) _ = _
  rw [readMoment, check, form]
  simp [int64?_integer, orInvalidBody, bind, Except.bind, Functor.map, Except.map]

/-- A decimal number is read as its canonical encoding. -/
theorem readValue_decimal {room : Nat} (d : Decimal128)
    (deep : (Value.decimal d).node.depth ≤ room) :
    readValue room (Value.decimal d).node = .ok (.decimal d.canonical) := by
  rw [Value.node] at deep ⊢
  rw [Node.depth_single] at deep
  obtain ⟨inner, rfl⟩ := Nat.exists_eq_add_of_le' deep
  refine readValue_single "$numberDecimal" rfl ?_
  simp [Node.ofText, readTextAs, readText, Quoted.read, orFault, Decimal128.ofText?_text, bind,
    Except.bind, pure, Except.pure, Functor.map, Except.map]

/-- A symbol is read as it is. -/
theorem readValue_symbol {room : Nat} (text : String)
    (deep : (Value.symbol text).node.depth ≤ room) :
    readValue room (Value.symbol text).node = .ok (.symbol text) := by
  rw [Value.node] at deep ⊢
  rw [Node.depth_single] at deep
  obtain ⟨inner, rfl⟩ := Nat.exists_eq_add_of_le' deep
  exact readValue_single "$symbol" rfl rfl

/-- A timestamp is read as it is. -/
theorem readValue_timestamp {room : Nat} (seconds increment : UInt32)
    (deep : (Value.timestamp seconds increment).node.depth ≤ room) :
    readValue room (Value.timestamp seconds increment).node = .ok (.timestamp seconds increment) := by
  rw [Value.node] at deep ⊢
  simp only [Node.depth_single, Node.depth_pair, Node.depth_number] at deep
  obtain ⟨inner, rfl⟩ := Nat.exists_eq_add_of_le' deep
  refine readValue_single "$timestamp" rfl ?_
  have body : readPair "struct TimestampBody" "t" "i" readWord readWord (inner + 1)
      (.object (.ofList [("t", .number (.ofNatural seconds.toNat)),
        ("i", .number (.ofNatural increment.toNat))])) = .ok (seconds, increment) :=
    readPair_object (by decide) (readWord_ofNatural inner seconds)
      (readWord_ofNatural inner increment)
  change readTimestamp (inner + 1) _ = _
  rw [readTimestamp, body]
  rfl

/-- A regular expression that can be read is read as it is. -/
theorem readValue_regex {room : Nat} {pattern options : String}
    (legible : (Value.regex pattern options).Legible)
    (deep : (Value.regex pattern options).node.depth ≤ room) :
    readValue room (Value.regex pattern options).node = .ok (.regex pattern options) := by
  rw [Value.node] at deep ⊢
  simp only [Node.depth_single, Node.depth_pair, Node.depth_ofText] at deep
  obtain ⟨inner, rfl⟩ := Nat.exists_eq_add_of_le' deep
  refine readValue_single "$regularExpression" rfl ?_
  have body : readPair "struct RegexBody" "pattern" "options" readText readText (inner + 1)
      (.object (.ofList [("pattern", .ofText pattern), ("options", .ofText options)])) =
        .ok (pattern, options) :=
    readPair_object (by decide) rfl rfl
  obtain ⟨noZero, sorted⟩ := legible
  change readRegex (inner + 1) _ = _
  rw [readRegex, body]
  simp only [bind, Except.bind, noZero, sorted]
  rfl

/-- A pointer to a record is read as it is. -/
theorem readValue_dbPointer {room : Nat} (space : String) (id : ObjectId)
    (deep : (Value.dbPointer space id).node.depth ≤ room) :
    readValue room (Value.dbPointer space id).node = .ok (.dbPointer space id) := by
  rw [Value.node] at deep ⊢
  simp only [ObjectId.node, Node.depth_single, Node.depth_pair, Node.depth_ofText] at deep
  obtain ⟨inner, rfl⟩ := Nat.exists_eq_add_of_le' deep
  refine readValue_single "$dbPointer" rfl ?_
  have body : readPair "struct DbPointerBody" "$ref" "$id" readText
      (readSingle "struct ObjectId" "$oid" readText) (inner + 2)
      (.object (.ofList [("$ref", .ofText space), ("$id", id.node)])) =
        .ok (space, String.ofList (Hex.encode id.bytes)) :=
    readPair_object (by decide) rfl (readSingle_object rfl)
  change readDbPointer (inner + 2) _ = _
  rw [readDbPointer, body]
  simp [ofText?_encode, orInvalidBody, bind, Except.bind, pure, Except.pure]

/-- A value that one number or truth value stands for is read as it is. -/
theorem readValue_mark {room : Nat} {key : String} {node : Node} {reader : Reader Value} {v : Value}
    (announced : typedReader? key = some reader) (read : ∀ room, reader room node = .ok v)
    (deep : (Node.single key node).depth ≤ room) :
    readValue room (.single key node) = .ok v := by
  rw [Node.depth_single] at deep
  obtain ⟨inner, rfl⟩ := Nat.exists_eq_add_of_le' deep
  exact readValue_single key announced (read _)

/-- The number one is read as the value that it stands for. -/
theorem readOne_ofNatural (v : Value) (room : Nat) :
    readOne v room (.number (.ofNatural 1)) = .ok v := by
  rw [readOne, readWhole_ofNatural (by decide) (by decide) (by decide)]
  rfl

/-! ## A value and all that it holds -/

/-- A level that is entered leaves room for what is in it. -/
theorem exists_room {depth room : Nat} (h : depth + 1 ≤ room) :
    ∃ inner, room = inner + 1 ∧ depth ≤ inner :=
  ⟨room - 1, by omega, by omega⟩

mutual

/-- A legible value is read from its tree as it reads back. -/
theorem readValue_node : ∀ {v : Value} {room : Nat}, v.Throughout Value.Legible →
    v.node.depth ≤ room → readValue room v.node = .ok v.reread
  | .null, _, _, _ => by rw [Value.node, readValue]; rfl
  | .boolean b, _, _, _ => by rw [Value.node, readValue]; rfl
  | .string text, _, _, _ => by rw [Value.node, Node.ofText, readValue]; rfl
  | .int32 n, _, _, _ => by
    have low := n.le_toInt
    have high := n.toInt_lt
    exact readValue_ofInteger (by omega) (by omega)
  | .int64 n, _, _, _ => readValue_ofInteger (by have := n.le_toInt; omega) n.toInt_lt
  | .double x, room, _, _ => readValue_double room x
  | .array items, room, legible, deep => by
    rw [Value.node, Node.depth] at deep
    obtain ⟨inner, rfl, inside⟩ := exists_room deep
    rw [Value.Throughout] at legible
    rw [Value.node, Value.reread, readValue, readElements_nodes legible.2 inside]
  | .document entries, room, legible, deep => by
    rw [Value.node, Node.depth] at deep
    obtain ⟨inner, rfl, inside⟩ := exists_room deep
    rw [Value.Throughout] at legible
    obtain ⟨⟨distinct, plain⟩, legible⟩ := legible
    have read : readMembers inner [] (.ofList (Value.members entries)) =
        .ok (.document ([] ++ Value.rereadEntries entries)) :=
      readMembers_members legible distinct plain inside
    rw [Value.node, Value.reread, readValue, read, List.nil_append]
  | .objectId id, _, _, deep => readValue_objectId id deep
  | .dateTime ms, _, _, deep => readValue_dateTime ms deep
  | .binary _ _, _, _, deep => readValue_binary deep
  | .decimal d, _, _, deep => readValue_decimal d deep
  | .code text, room, _, deep => by
    rw [Value.node, Node.depth_single] at deep
    obtain ⟨inner, rfl, -⟩ := exists_room deep
    rw [Value.node, Node.single, readValue]
    exact readMembers_cons_eq_ok_iff.2 (.code rfl)
  | .codeWithScope text scope, room, legible, deep => by
    rw [Value.node, Node.depth_pair] at deep
    obtain ⟨inner, rfl, inside⟩ := exists_room deep
    obtain ⟨room, rfl, within⟩ := exists_room (Nat.le_trans (Nat.le_max_right _ _) inside)
    rw [Value.Throughout] at legible
    obtain ⟨⟨distinct, plain⟩, legible⟩ := legible
    have bindings : readScope (room + 1) (.object (.ofList (Value.members scope))) =
        .ok (Value.rereadEntries scope) := by
      have read : readMembers room [] (.ofList (Value.members scope)) =
          .ok (.document ([] ++ Value.rereadEntries scope)) :=
        readMembers_members legible distinct plain within
      rw [readScope, read]
      rfl
    rw [Value.node, Value.reread, readValue]
    exact readMembers_cons_eq_ok_iff.2 (.codeFirst rfl bindings)
  | .symbol text, _, _, deep => readValue_symbol text deep
  | .timestamp seconds increment, _, _, deep => readValue_timestamp seconds increment deep
  | .regex _ _, _, legible, deep => readValue_regex legible deep
  | .dbPointer space id, _, _, deep => readValue_dbPointer space id deep
  | .undefined, _, _, deep => readValue_mark rfl (fun _ => rfl) deep
  | .maxKey, _, _, deep => readValue_mark rfl (readOne_ofNatural .maxKey) deep
  | .minKey, _, _, deep => readValue_mark rfl (readOne_ofNatural .minKey) deep

/-- Legible elements of an array are read as they read back. -/
theorem readElements_nodes : ∀ {items : List Value} {room : Nat},
    Value.ThroughoutItems Value.Legible items →
    (Items.ofList (Value.nodes items)).depth ≤ room →
    readElements room (.ofList (Value.nodes items)) = .ok (Value.rereadItems items)
  | [], _, _, _ => by rw [Value.nodes, Items.ofList, readElements]; rfl
  | v :: rest, room, legible, deep => by
    rw [Value.ThroughoutItems] at legible
    rw [Value.nodes, Items.ofList, Items.depth] at deep
    rw [Value.nodes, Items.ofList, readElements, readValue_node legible.1 (by omega)]
    dsimp only
    rw [readElements_nodes legible.2 (by omega)]
    rfl

/-- Legible entries of a document are read as they read back, after those that were read before. -/
theorem readMembers_members : ∀ {rest : List (String × Value)} {room : Nat} {entries : Document},
    Value.ThroughoutEntries Value.Legible rest → (Keyed.keys (entries ++ rest)).Nodup →
    (∀ key ∈ Keyed.keys rest, key ∉ typedKeys) →
    (Members.ofList (Value.members rest)).depth ≤ room →
    readMembers room entries (.ofList (Value.members rest)) =
      .ok (.document (entries ++ Value.rereadEntries rest))
  | [], _, _, _, _, _, _ => by
    rw [Value.members, Members.ofList, readMembers, Value.rereadEntries, List.append_nil]
  | (key, v) :: rest, room, entries, legible, distinct, plain, deep => by
    rw [Value.ThroughoutEntries] at legible
    rw [Value.members, Members.ofList, Members.depth] at deep
    have hkeys : Keyed.keys (entries ++ (key, v) :: rest) =
        Keyed.keys entries ++ key :: Keyed.keys rest := List.map_append
    have new : key ∉ Keyed.keys entries := by
      rw [hkeys, List.nodup_append] at distinct
      exact fun old => distinct.2.2 key old key (.head _) rfl
    have hread := readValue_node legible.1 (Nat.le_trans (Nat.le_max_left _ _) deep)
    have after : Keyed.keys (entries ++ [(key, v.reread)] ++ rest) =
        Keyed.keys (entries ++ (key, v) :: rest) := by
      simp [Keyed.keys]
    rw [Value.members, Members.ofList, readMembers_plain (plain key (.head _)) hread,
      Keyed.put_of_not_mem new, readMembers_members legible.2 (after ▸ distinct)
        (fun other h => plain other (.tail _ h)) (Nat.le_trans (Nat.le_max_right _ _) deep)]
    simp [Value.rereadEntries]

end

end QueryPipeline
