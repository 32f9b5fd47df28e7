import QueryPipeline.Proofs.Double.Reread
import QueryPipeline.Proofs.Json.Write
import QueryPipeline.Value.Write

/-!
# The tree of a value

`Value.node` is the tree that the text of a value spells (`Value.spells_write`), for every value and
so for the values inside it. Each kind of value that JSON lacks is an object whose one key names the
kind, bytes of the generic subtype and doubles that are not finite apart.
-/

namespace QueryPipeline

open Json

/-- The tree of an identifier. -/
def ObjectId.node (id : ObjectId) : Node :=
  .single "$oid" (.ofText (String.ofList (Hex.encode id.bytes)))

/-- The tree of bytes. -/
def binaryNode (subtype : UInt8) (bytes : List UInt8) : Node :=
  if subtype = 0 then .array (.ofList (bytes.map fun b => .number (.ofNatural b.toNat)))
  else .single "$binary" (.object (.ofList
    [("base64", .ofText (String.ofList (Base64.encode bytes))),
      ("subType", .ofText (String.ofList (Hex.encodeByte subtype)))]))

namespace Value

mutual

/-- The tree that the text of a value spells. -/
def node : Value → Node
  | .null => .null
  | .boolean b => .boolean b
  | .string text => .ofText text
  | .int32 n => .number (.ofInteger n.toInt)
  | .int64 n => .number (.ofInteger n.toInt)
  | .double x => if x.isNaN || x.isInf then .null else .number (Double.numeral x)
  | .array items => .array (.ofList (nodes items))
  | .document entries => .object (.ofList (members entries))
  | .objectId id => id.node
  | .dateTime ms =>
    .single "$date" (.single "$numberLong" (.ofText (String.ofList (Text.integer ms.toInt))))
  | .binary subtype bytes => binaryNode subtype bytes
  | .decimal d => .single "$numberDecimal" (.ofText d.text)
  | .code text => .single "$code" (.ofText text)
  | .codeWithScope text scope =>
    .object (.ofList [("$code", .ofText text), ("$scope", .object (.ofList (members scope)))])
  | .symbol text => .single "$symbol" (.ofText text)
  | .timestamp seconds increment =>
    .single "$timestamp" (.object (.ofList [("t", .number (.ofNatural seconds.toNat)),
      ("i", .number (.ofNatural increment.toNat))]))
  | .regex pattern options =>
    .single "$regularExpression" (.object (.ofList [("pattern", .ofText pattern),
      ("options", .ofText options)]))
  | .dbPointer space id =>
    .single "$dbPointer" (.object (.ofList [("$ref", .ofText space), ("$id", id.node)]))
  | .undefined => .single "$undefined" (.boolean true)
  | .maxKey => .single "$maxKey" (.number (.ofNatural 1))
  | .minKey => .single "$minKey" (.number (.ofNatural 1))

/-- The trees of the elements of an array. -/
def nodes : List Value → List Node
  | [] => []
  | v :: rest => v.node :: nodes rest

/-- The trees of the entries of a document, each with its key. -/
def members : List (String × Value) → List (String × Node)
  | [] => []
  | (key, v) :: rest => (key, v.node) :: members rest

end

end Value

/-- The tree that the text of a document spells. -/
def Document.node (d : Document) : Node :=
  (Value.document d).node

/-! ## The text of a value -/

/-- An identifier as written. -/
theorem spells_writeId (id : ObjectId) : SpellsValue (Value.writeId id) id.node :=
  spells_writeSingle "$oid" (spells_writeText _)

/-- An object of two members. -/
theorem spells_writePair {first second : List Char} {a b : Node} (name other : String)
    (ha : SpellsValue first a) (hb : SpellsValue second b) :
    SpellsValue (writeObject [writeMember name first, writeMember other second])
      (.object (.ofList [(name, a), (other, b)])) :=
  spells_writeObject (.cons (spellsMember_writeMember name ha)
    (.cons (spellsMember_writeMember other hb) .nil))

/-- Bytes as written. -/
theorem spells_writeBinary (subtype : UInt8) (bytes : List UInt8) :
    SpellsValue (Value.writeBinary subtype bytes) (binaryNode subtype bytes) := by
  unfold Value.writeBinary binaryNode
  split
  · exact spells_writeBytes bytes
  · exact spells_writeSingle _ (spells_writePair _ _ (spells_writeText _) (spells_writeText _))

/-- A double as written. -/
theorem spells_writeDouble (x : Float) :
    SpellsValue (Value.writeDouble x)
      (if x.isNaN || x.isInf then .null else .number (Double.numeral x)) := by
  unfold Value.writeDouble
  split
  · exact .null
  · next finite => exact .number (Double.spells_numeral (Bool.eq_false_iff.2 finite))

namespace Value

mutual

/-- The text of a value spells its tree. -/
theorem spells_write : ∀ v : Value, SpellsValue v.write v.node
  | .null => .null
  | .boolean true => .yes
  | .boolean false => .no
  | .string text => spells_writeText text
  | .int32 n => spells_integer n.toInt
  | .int64 n => spells_integer n.toInt
  | .double x => spells_writeDouble x
  | .array items => spells_writeArray (spells_writeItems items)
  | .document entries => spells_writeObject (spells_writeEntries entries)
  | .objectId id => spells_writeId id
  | .dateTime _ => spells_writeSingle _ (spells_writeSingle _ (spells_writeText _))
  | .binary subtype bytes => spells_writeBinary subtype bytes
  | .decimal _ => spells_writeSingle _ (spells_writeText _)
  | .code _ => spells_writeSingle _ (spells_writeText _)
  | .codeWithScope _ scope =>
    spells_writePair _ _ (spells_writeText _) (spells_writeObject (spells_writeEntries scope))
  | .symbol _ => spells_writeSingle _ (spells_writeText _)
  | .timestamp _ _ => spells_writeSingle _ (spells_writePair _ _ (spells_natural _) (spells_natural _))
  | .regex _ _ => spells_writeSingle _ (spells_writePair _ _ (spells_writeText _) (spells_writeText _))
  | .dbPointer _ id => spells_writeSingle _ (spells_writePair _ _ (spells_writeText _) (spells_writeId id))
  | .undefined => spells_writeSingle _ .yes
  | .maxKey => spells_writeSingle _ (spells_natural 1)
  | .minKey => spells_writeSingle _ (spells_natural 1)

/-- The texts of the elements of an array spell their trees. -/
theorem spells_writeItems : ∀ items : List Value,
    List.Forall₂ SpellsValue (writeItems items) (nodes items)
  | [] => .nil
  | v :: rest => .cons v.spells_write (spells_writeItems rest)

/-- The texts of the entries of a document spell their trees, each behind its key. -/
theorem spells_writeEntries : ∀ entries : List (String × Value),
    List.Forall₂ SpellsMember (writeEntries entries) (members entries)
  | [] => .nil
  | (key, v) :: rest =>
    .cons (spellsMember_writeMember key v.spells_write) (spells_writeEntries rest)

end

end Value

end QueryPipeline
