import QueryPipeline.Proofs.Value.Reread

/-!
# Values that JSON spells itself

Null, truth values, texts, integers, arrays and documents have a form of their own in JSON. A value
of these kinds whose integers have the width that a reader gives them (`Value.IsWire`) is what its
text is read as, with nothing changed (`readValue_of_isWire`).
-/

namespace QueryPipeline

namespace Value

section
variable {P Q : Value → Prop}

mutual

/-- What follows from a property holds throughout where the property does. -/
theorem Throughout.imp (step : ∀ v, P v → Q v) : ∀ {v : Value}, v.Throughout P → v.Throughout Q
  | .array _, has => by
    rw [Throughout] at has ⊢
    exact ⟨step _ has.1, ThroughoutItems.imp step has.2⟩
  | .document _, has | .codeWithScope _ _, has => by
    rw [Throughout] at has ⊢
    exact ⟨step _ has.1, ThroughoutEntries.imp step has.2⟩
  | .int32 _, has | .int64 _, has | .double _, has | .binary _ _, has | .decimal _, has | .null, has
  | .boolean _, has | .string _, has | .objectId _, has | .dateTime _, has | .code _, has
  | .symbol _, has | .timestamp _ _, has | .regex _ _, has | .dbPointer _ _, has | .undefined, has
  | .maxKey, has | .minKey, has => step _ has

/-- What follows from a property holds throughout the elements of an array. -/
theorem ThroughoutItems.imp (step : ∀ v, P v → Q v) : ∀ {items : List Value},
    ThroughoutItems P items → ThroughoutItems Q items
  | [], _ => trivial
  | _ :: _, has => ⟨Throughout.imp step has.1, ThroughoutItems.imp step has.2⟩

/-- What follows from a property holds throughout the values of a document. -/
theorem ThroughoutEntries.imp (step : ∀ v, P v → Q v) : ∀ {entries : List (String × Value)},
    ThroughoutEntries P entries → ThroughoutEntries Q entries
  | [], _ => trivial
  | _ :: _, has => ⟨Throughout.imp step has.1, ThroughoutEntries.imp step has.2⟩

end

end

/-- A value of a kind that JSON has. An integer without a sign that fits 32 bits has 32 bits, any
other has 64, and the keys of a document are read as keys. -/
def IsWire : Value → Prop
  | .null | .boolean _ | .string _ | .array _ => True
  | .int32 n => 0 ≤ n.toInt
  | .int64 n => n.toInt < 0 ∨ 0x80000000 ≤ n.toInt
  | .document entries => Document.PlainKeys entries
  | _ => False

/-- The text of a value of a kind that JSON has is read as a value. -/
theorem IsWire.legible {v : Value} (h : v.IsWire) : v.Legible := by
  cases v with
  | document => exact h
  | codeWithScope | regex => cases h
  | _ => trivial

/-- A whole number without a sign that fits 32 bits has 32 bits. -/
theorem wholeValue_int32 {n : Int32} (h : 0 ≤ n.toInt) : wholeValue n.toInt = .int32 n := by
  have high := n.toInt_lt
  rw [wholeValue, if_neg (by omega), if_pos (by omega), Int32.ofInt_toInt]

/-- A whole number with a sign, or one that does not fit 32 bits, has 64 bits. -/
theorem wholeValue_int64 {n : Int64} (h : n.toInt < 0 ∨ 0x80000000 ≤ n.toInt) :
    wholeValue n.toInt = .int64 n := by
  unfold wholeValue
  split
  · rw [Int64.ofInt_toInt]
  · rw [if_neg (by omega), Int64.ofInt_toInt]

mutual

/-- Nothing changes in a value of the kinds that JSON has. -/
theorem reread_of_isWire : ∀ {v : Value}, v.Throughout IsWire → v.reread = v
  | .null, _ | .boolean _, _ | .string _, _ => rfl
  | .int32 _, wire => by
    rw [reread]
    exact wholeValue_int32 wire
  | .int64 _, wire => by
    rw [reread]
    exact wholeValue_int64 wire
  | .array _, wire => by
    rw [Throughout] at wire
    rw [reread, rereadItems_of_isWire wire.2]
  | .document _, wire => by
    rw [Throughout] at wire
    rw [reread, rereadEntries_of_isWire wire.2]
  | .codeWithScope _ _, wire => wire.1.elim
  | .double _, wire | .binary _ _, wire | .decimal _, wire | .objectId _, wire | .dateTime _, wire
  | .code _, wire | .symbol _, wire | .timestamp _ _, wire | .regex _ _, wire | .dbPointer _ _, wire
  | .undefined, wire | .maxKey, wire | .minKey, wire => wire.elim

/-- Nothing changes in the elements of an array. -/
theorem rereadItems_of_isWire : ∀ {items : List Value}, ThroughoutItems IsWire items →
    rereadItems items = items
  | [], _ => rfl
  | _ :: _, wire => by
    rw [rereadItems, reread_of_isWire wire.1, rereadItems_of_isWire wire.2]

/-- Nothing changes in the entries of a document. -/
theorem rereadEntries_of_isWire : ∀ {entries : List (String × Value)},
    ThroughoutEntries IsWire entries → rereadEntries entries = entries
  | [], _ => rfl
  | (_, _) :: _, wire => by
    rw [rereadEntries, reread_of_isWire wire.1, rereadEntries_of_isWire wire.2]

end

end Value

/-- A value of the kinds that JSON has is what its tree is read as. -/
theorem readValue_of_isWire {v : Value} {room : Nat} (wire : v.Throughout Value.IsWire)
    (deep : v.node.depth ≤ room) : readValue room v.node = .ok v := by
  rw [readValue_node (wire.imp fun _ => Value.IsWire.legible) deep, Value.reread_of_isWire wire]

end QueryPipeline
