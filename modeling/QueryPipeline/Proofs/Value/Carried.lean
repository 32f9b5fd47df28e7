import QueryPipeline.Proofs.Value.Reread

/-!
# What JSON does to a value

A value that is written and read back keeps its arrays, its documents with all keys in their order,
and its code. Of what is in them `Carried` says what may come back in its place: an integer of
another width, for a double one that stands for it, and three kinds that JSON has no exact form for
(`Value.carried_reread`). Where none of these kinds occurs, only the widths of integers may differ
(`Value.agrees_reread`).
-/

namespace QueryPipeline

namespace Value

/-! ## Values of one shape -/

mutual

/-- Values of the same arrays, documents and code, in which related values are at the same places. -/
def Related (R : Value → Value → Prop) : Value → Value → Prop
  | .array items, .array others => RelatedItems R items others
  | .document entries, .document others => RelatedEntries R entries others
  | .codeWithScope text scope, .codeWithScope other others =>
    text = other ∧ RelatedEntries R scope others
  | v, w => R v w

/-- Elements of arrays that are related one by one. -/
def RelatedItems (R : Value → Value → Prop) : List Value → List Value → Prop
  | [], [] => True
  | v :: rest, w :: others => v.Related R w ∧ RelatedItems R rest others
  | _, _ => False

/-- Entries of documents whose keys are the same and whose values are related one by one. -/
def RelatedEntries (R : Value → Value → Prop) :
    List (String × Value) → List (String × Value) → Prop
  | [], [] => True
  | (key, v) :: rest, (other, w) :: others =>
    key = other ∧ v.Related R w ∧ RelatedEntries R rest others
  | _, _ => False

end

/-- The number that an integer is. -/
def integer? : Value → Option Int
  | .int32 n => some n.toInt
  | .int64 n => some n.toInt
  | _ => none

/-- The same value, or the same number in another width. -/
inductive SameUpToWidth : Value → Value → Prop
  | refl (v : Value) : SameUpToWidth v v
  | integer {v w : Value} {n : Int} (hv : v.integer? = some n) (hw : w.integer? = some n) :
      SameUpToWidth v w

/-- What may come back in place of a value that holds no others. -/
inductive Carried : Value → Value → Prop
  | same {v w : Value} (h : SameUpToWidth v w) : Carried v w
  | double {x y : Float} (stands : Double.StandsFor y x) (short : Double.IsShort x → y = x) :
      Carried (.double x) (.double y)
  /-- JSON has no number that is infinite, and none for what is not a number. -/
  | notFinite {x : Float} (h : ¬ Double.IsFinite x) : Carried (.double x) .null
  /-- Bytes of the generic subtype are written as numbers. -/
  | bytes {bytes : List UInt8} {numbers : List Value}
      (h : List.Forall₂ (fun b v => v.integer? = some (b.toNat : Int)) bytes numbers) :
      Carried (.binary 0 bytes) (.array numbers)
  /-- Of the encodings of a number one is made by reading it. -/
  | decimal {d e : Decimal128} (number : e.toDecimal = d.toDecimal.shown)
      (canonical : d.canonical = d → e = d) : Carried (.decimal d) (.decimal e)

/-- Entries that are related have the same keys in the same order. -/
theorem RelatedEntries.keys_eq {R : Value → Value → Prop} : ∀ {entries others : List (String × Value)},
    RelatedEntries R entries others → Keyed.keys others = Keyed.keys entries
  | [], [], _ => rfl
  | (key, _) :: rest, (_, _) :: others, h => by
    obtain ⟨rfl, -, h⟩ := h
    exact congrArg (key :: ·) h.keys_eq
  | [], _ :: _, h | _ :: _, [], h => by cases h

/-- A relation of values that hold no others, under which a document is related to itself alone. -/
def KeepsDocuments (R : Value → Value → Prop) : Prop :=
  ∀ entries w, R (.document entries) w → w = .document entries

/-- What is the same up to width as a value that is no integer is that value. -/
theorem SameUpToWidth.eq {v w : Value} (h : SameUpToWidth v w) (other : v.integer? = none) :
    w = v := by
  cases h with
  | refl => rfl
  | integer hv => cases other.symm.trans hv

/-- A value that is the same up to width is the same if it is a document. -/
theorem SameUpToWidth.keepsDocuments : KeepsDocuments SameUpToWidth :=
  fun _ _ h => h.eq rfl

/-- What comes back in place of a document is the document. -/
theorem Carried.keepsDocuments : KeepsDocuments Carried := by
  intro entries w h
  cases h with
  | same h => exact h.keepsDocuments

/-- A value for which JSON has an exact form. -/
def IsExact : Value → Prop
  | .double x => Double.IsFinite x ∧ Double.IsShort x
  | .binary subtype _ => subtype ≠ 0
  | .decimal d => d.canonical = d
  | _ => True

/-! ## What comes back -/

/-- What a whole number is read as is that number. -/
theorem integer?_wholeValue {n : Int} (low : -0x8000000000000000 ≤ n)
    (high : n < 0x8000000000000000) : (wholeValue n).integer? = some n := by
  unfold wholeValue
  split
  · exact congrArg some (Int64.toInt_ofInt_of_le low high)
  · split
    · exact congrArg some (Int32.toInt_ofInt_of_le (by omega) (by omega))
    · exact congrArg some (Int64.toInt_ofInt_of_le low high)

/-- What comes back of an integer. -/
theorem carried_wholeValue {v : Value} {n : Int} (hv : v.integer? = some n)
    (low : -0x8000000000000000 ≤ n) (high : n < 0x8000000000000000) : Carried v (wholeValue n) :=
  .same (.integer hv (integer?_wholeValue low high))

/-- What comes back of a double. -/
theorem carried_double (x : Float) : Carried (.double x) (Value.double x).reread := by
  rw [reread]
  split
  · next infinite => exact .notFinite fun finite => by rw [Double.IsFinite, infinite] at finite; cases finite
  · next finite =>
    have finite : Double.IsFinite x := Bool.eq_false_iff.2 finite
    exact .double (Double.reread_standsFor finite) fun short => Double.reread_of_isShort finite short

/-- What comes back of bytes. -/
theorem carried_binary (subtype : UInt8) (bytes : List UInt8) :
    Carried (.binary subtype bytes) (Value.binary subtype bytes).reread := by
  rw [reread]
  split
  · next generic =>
    rw [generic]
    refine .bytes (List.forall₂_map_right_iff.2 (List.forall₂_same.2 fun b _ => ?_))
    have := b.toNat_lt
    exact integer?_wholeValue (by omega) (by omega)
  · exact .same (.refl _)

mutual

/-- What JSON does to a value. -/
theorem carried_reread : ∀ v : Value, v.Related Carried v.reread
  | .int32 n => by
    have low := n.le_toInt
    have high := n.toInt_lt
    exact carried_wholeValue rfl (by omega) (by omega)
  | .int64 n => carried_wholeValue rfl (by have := n.le_toInt; omega) n.toInt_lt
  | .double x => carried_double x
  | .array items => by
    rw [reread, Related]
    exact carried_rereadItems items
  | .document entries => by
    rw [reread, Related]
    exact carried_rereadEntries entries
  | .codeWithScope _ scope => by
    rw [reread, Related]
    exact ⟨rfl, carried_rereadEntries scope⟩
  | .binary subtype bytes => carried_binary subtype bytes
  | .decimal d => .decimal d.toDecimal_canonical id
  | .null | .boolean _ | .string _ | .objectId _ | .dateTime _ | .code _ | .symbol _
  | .timestamp _ _ | .regex _ _ | .dbPointer _ _ | .undefined | .maxKey | .minKey => .same (.refl _)

/-- What JSON does to the elements of an array. -/
theorem carried_rereadItems : ∀ items : List Value, RelatedItems Carried items (rereadItems items)
  | [] => trivial
  | v :: rest => by
    rw [rereadItems, RelatedItems]
    exact ⟨carried_reread v, carried_rereadItems rest⟩

/-- What JSON does to the entries of a document. -/
theorem carried_rereadEntries : ∀ entries : List (String × Value),
    RelatedEntries Carried entries (rereadEntries entries)
  | [] => trivial
  | (key, v) :: rest => by
    rw [rereadEntries, RelatedEntries]
    exact ⟨rfl, carried_reread v, carried_rereadEntries rest⟩

end

/-- A value that JSON has an exact form for comes back up to the width of an integer. -/
theorem Carried.sameUpToWidth {v w : Value} (h : Carried v w) (exact : v.IsExact) :
    SameUpToWidth v w := by
  cases h with
  | same h => exact h
  | double _ short => exact short exact.2 ▸ .refl _
  | notFinite infinite => exact absurd exact.1 infinite
  | bytes _ => exact absurd rfl exact
  | decimal _ canonical => exact canonical exact ▸ .refl _

section
variable {P : Value → Prop} {R S : Value → Value → Prop}

mutual

/-- Values with a property throughout are related by whatever follows for them. -/
theorem Related.imp (step : ∀ v w, P v → R v w → S v w) : ∀ {v w : Value}, v.Throughout P →
    v.Related R w → v.Related S w
  | .array items, w, has, h => by
    rw [Throughout] at has
    cases w with
    | array others =>
      rw [Related] at h ⊢
      exact RelatedItems.imp step has.2 h
    | _ => exact step _ _ has.1 h
  | .document entries, w, has, h => by
    rw [Throughout] at has
    cases w with
    | document others =>
      rw [Related] at h ⊢
      exact RelatedEntries.imp step has.2 h
    | _ => exact step _ _ has.1 h
  | .codeWithScope text scope, w, has, h => by
    rw [Throughout] at has
    cases w with
    | codeWithScope other others =>
      rw [Related] at h ⊢
      exact ⟨h.1, RelatedEntries.imp step has.2 h.2⟩
    | _ => exact step _ _ has.1 h
  | .int32 _, _, has, h | .int64 _, _, has, h | .double _, _, has, h | .binary _ _, _, has, h
  | .decimal _, _, has, h | .null, _, has, h | .boolean _, _, has, h | .string _, _, has, h
  | .objectId _, _, has, h | .dateTime _, _, has, h | .code _, _, has, h | .symbol _, _, has, h
  | .timestamp _ _, _, has, h | .regex _ _, _, has, h | .dbPointer _ _, _, has, h
  | .undefined, _, has, h | .maxKey, _, has, h | .minKey, _, has, h => step _ _ has h

/-- Elements of arrays with a property throughout are related by whatever follows for them. -/
theorem RelatedItems.imp (step : ∀ v w, P v → R v w → S v w) : ∀ {items others : List Value},
    ThroughoutItems P items → RelatedItems R items others → RelatedItems S items others
  | [], [], _, _ => trivial
  | v :: rest, w :: others, has, h => by
    rw [ThroughoutItems] at has
    rw [RelatedItems] at h ⊢
    exact ⟨Related.imp step has.1 h.1, RelatedItems.imp step has.2 h.2⟩

/-- Entries of documents with a property throughout are related by whatever follows for them. -/
theorem RelatedEntries.imp (step : ∀ v w, P v → R v w → S v w) :
    ∀ {entries others : List (String × Value)}, ThroughoutEntries P entries →
      RelatedEntries R entries others → RelatedEntries S entries others
  | [], [], _, _ => trivial
  | (key, v) :: rest, (other, w) :: others, has, h => by
    rw [ThroughoutEntries] at has
    rw [RelatedEntries] at h ⊢
    exact ⟨h.1, Related.imp step has.1 h.2.1, RelatedEntries.imp step has.2 h.2.2⟩

end

end

/-- A value of which JSON has an exact form throughout comes back up to the widths of integers. -/
theorem agrees_reread {v : Value} (exact : v.Throughout IsExact) :
    v.Related SameUpToWidth v.reread :=
  Related.imp (fun _ _ exact h => h.sameUpToWidth exact) exact (carried_reread v)

end Value

end QueryPipeline
