import QueryPipeline.Proofs.Value.Reread
import QueryPipeline.Proofs.Value.Room

/-!
# What readers make is legible

A value that was read from JSON is one whose text reads back: a key that announces a typed value is
never kept as a key, an entry of a key that is there replaces the earlier one, and a regular
expression is refused if it cannot be written (`readValue_legible`). The same holds of a table of
values.
-/

namespace QueryPipeline

open Json

namespace Value

/-- The entries of a document have a property throughout exactly if each of its values has. -/
theorem throughoutEntries_iff {P : Value → Prop} {entries : List (String × Value)} :
    ThroughoutEntries P entries ↔ ∀ entry ∈ entries, entry.2.Throughout P := by
  induction entries with
  | nil => simp [ThroughoutEntries]
  | cons entry rest ih => simp [ThroughoutEntries, ih]

/-- The elements of an array have a property throughout exactly if each of them has. -/
theorem throughoutItems_iff {P : Value → Prop} {items : List Value} :
    ThroughoutItems P items ↔ ∀ v ∈ items, v.Throughout P := by
  induction items with
  | nil => simp [ThroughoutItems]
  | cons v rest ih => simp [ThroughoutItems, ih]

end Value

/-- A document whose text reads back. -/
structure Document.Legible (d : Document) : Prop where
  keys : d.PlainKeys
  values : Value.ThroughoutEntries Value.Legible d

namespace Document

/-- A document is legible exactly if it is as a value. -/
theorem legible_iff {d : Document} :
    d.Legible ↔ (Value.document d).Throughout Value.Legible := by
  rw [Value.Throughout]
  exact ⟨fun h => ⟨h.keys, h.values⟩, fun h => ⟨h.1, h.2⟩⟩

/-- The document without entries is legible. -/
theorem legible_nil : Legible [] :=
  ⟨⟨List.nodup_nil, fun _ h => absurd h List.not_mem_nil⟩, trivial⟩

/-- A legible document stays so with an entry whose key announces nothing. -/
theorem Legible.put {d : Document} (h : d.Legible) {key : String} {v : Value}
    (plain : key ∉ typedKeys) (hv : v.Throughout Value.Legible) :
    Document.Legible (Keyed.put d key v) := by
  refine ⟨⟨Keyed.nodup_keys_put d key v h.keys.distinct, ?_⟩, ?_⟩
  · intro other hother
    rcases Keyed.mem_keys_put.1 hother with rfl | hother
    · exact plain
    · exact h.keys.plain other hother
  · rw [Value.throughoutEntries_iff]
    intro entry hentry
    rcases Keyed.mem_of_mem_put hentry with rfl | hentry
    · exact hv
    · exact Value.throughoutEntries_iff.1 h.values entry hentry

end Document

/-! ## Typed values -/

/-- Letters in order stay as they are. -/
theorem sortLetters_sortLetters (text : String) :
    sortLetters (sortLetters text) = sortLetters text := by
  have sorted : (text.toList.mergeSort fun a b => decide (a ≤ b)).Pairwise
      fun a b => decide (a ≤ b) = true := by
    refine List.pairwise_mergeSort (fun a b c hab hbc => ?_) (fun a b => ?_) _
    · exact decide_eq_true (Char.le_trans (of_decide_eq_true hab) (of_decide_eq_true hbc))
    · simpa using Char.le_total a b
  rw [sortLetters, sortLetters, String.toList_ofList, List.mergeSort_of_pairwise sorted]

/-- The characters of a text stay when its letters are sorted. -/
theorem mem_sortLetters {text : String} {c : Char} :
    c ∈ (sortLetters text).toList ↔ c ∈ text.toList := by
  rw [sortLetters, String.toList_ofList, List.mem_mergeSort]

/-- A regular expression that is read can be written. -/
theorem readRegex_legible {room : Nat} {node : Node} {v : Value} (h : readRegex room node = .ok v) :
    v.Throughout Value.Legible := by
  obtain ⟨⟨pattern, options⟩, -, h⟩ := bind_eq_ok_iff.1 h
  dsimp only at h
  split at h
  · cases h
  · next noZero =>
    cases h
    refine ⟨?_, sortLetters_sortLetters options⟩
    simpa [mem_sortLetters] using noZero

/-- A typed value that is read is legible. -/
theorem typedReader?_legible {name : String} {reader : Reader Value} {room : Nat} {node : Node}
    {v : Value} (h : typedReader? name = some reader) (read : reader room node = .ok v) :
    v.Throughout Value.Legible := by
  unfold typedReader? at h
  split at h
  case h_1 | h_2 | h_3 | h_4 | h_5 | h_15 =>
    cases h
    obtain ⟨a, -, rfl⟩ := map_eq_ok_iff.1 read
    trivial
  case h_6 =>
    cases h
    obtain ⟨_, -, read⟩ := bind_eq_ok_iff.1 read
    obtain ⟨_, -, read⟩ := bind_eq_ok_iff.1 read
    split at read <;> cases read
    trivial
  case h_7 =>
    cases h
    obtain ⟨_, -, read⟩ := bind_eq_ok_iff.1 read
    obtain ⟨_, -, ⟨⟩⟩ := bind_eq_ok_iff.1 read
    trivial
  case h_8 =>
    cases h
    obtain ⟨_, -, ⟨⟩⟩ := bind_eq_ok_iff.1 read
    trivial
  case h_9 =>
    cases h
    exact readRegex_legible read
  case h_10 =>
    cases h
    obtain ⟨_, -, read⟩ := bind_eq_ok_iff.1 read
    obtain ⟨_, -, ⟨⟩⟩ := bind_eq_ok_iff.1 read
    trivial
  case h_11 =>
    cases h
    obtain ⟨_, -, read⟩ := bind_eq_ok_iff.1 read
    split at read
    · cases read
    · obtain ⟨_, -, rfl⟩ := map_eq_ok_iff.1 read
      trivial
    · obtain ⟨_, -, rfl⟩ := map_eq_ok_iff.1 read
      trivial
    · cases read
      trivial
  case h_12 | h_13 =>
    cases h
    obtain ⟨_, -, read⟩ := bind_eq_ok_iff.1 read
    split at read <;> cases read
    trivial
  case h_14 =>
    cases h
    unfold readUndefined at read
    split at read
    · cases read
      trivial
    · cases read
    · exact absurd read wrongKind_ne_ok
  case h_16 =>
    cases h
    obtain ⟨_, -, read⟩ := bind_eq_ok_iff.1 read
    split at read <;> cases read
    trivial
  case h_17 => cases h

/-- A name that is kept as a key announces nothing. -/
theorem not_mem_typedKeys {name : String} (code : name ≠ "$code") (scope : name ≠ "$scope")
    (h : typedReader? name = none) : name ∉ typedKeys := by
  intro announced
  simp only [typedKeys, List.mem_cons, List.not_mem_nil, or_false, code, scope, false_or] at announced
  rcases announced with rfl | rfl | rfl | rfl | rfl | rfl | rfl | rfl | rfl | rfl | rfl | rfl | rfl |
    rfl | rfl | rfl <;> cases h

/-! ## Values -/

/-- A number that is read is legible. -/
theorem valueOfQuantity_legible {q : Quantity} {v : Value} (h : valueOfQuantity q = .ok v) :
    v.Throughout Value.Legible := by
  unfold valueOfQuantity at h
  split at h
  · cases h
    trivial
  · split_ifs at h <;> first | (cases h; trivial) | cases h

/-- A document that a legible value is, is legible. -/
theorem documentOf_legible {v : Value} {d : Document} (h : documentOf v = .ok d)
    (legible : v.Throughout Value.Legible) : d.Legible := by
  unfold documentOf at h
  split at h
  · cases h
    exact Document.legible_iff.2 legible
  · cases h

/-- Code with a legible scope is legible. -/
theorem Document.Legible.throughout_code {scope : Document} (h : scope.Legible) (text : String) :
    (Value.codeWithScope text scope).Throughout Value.Legible := by
  rw [Value.Throughout]
  exact ⟨h.keys, h.values⟩

mutual

/-- A value that is read is legible. -/
theorem readValue_legible : ∀ {node : Node} {room : Nat} {v : Value}, readValue room node = .ok v →
    v.Throughout Value.Legible
  | .absent _, _, _, h | .misspelled _, _, _, h => by cases h
  | .null, _, _, h | .boolean _, _, _, h => by
    cases h
    trivial
  | .number _, _, _, h => by
    rw [readValue] at h
    split at h
    · exact valueOfQuantity_legible h
    · cases h
  | .string _, _, _, h => by
    rw [readValue] at h
    split at h <;> cases h
    trivial
  | .array _, 0, _, h | .object _, 0, _, h => by cases h
  | .array items, room + 1, v, h => by
    rw [readValue] at h
    split at h
    next values hvalues =>
      cases h
      rw [Value.Throughout]
      exact ⟨trivial, readElements_legible hvalues⟩
    next => cases h
  | .object members, room + 1, v, h => by
    rw [readValue] at h
    exact readMembers_legible h Document.legible_nil

/-- The elements of an array that are read are legible. -/
theorem readElements_legible : ∀ {items : Items} {room : Nat} {values : List Value},
    readElements room items = .ok values → Value.ThroughoutItems Value.Legible values
  | .closed, _, _, h => by
    cases h
    trivial
  | .cut _, _, _, h => by cases h
  | .cons head tail, room, values, h => by
    rw [readElements] at h
    split at h
    next => cases h
    next v hv =>
      split at h
      next => cases h
      next rest hrest =>
        cases h
        rw [Value.ThroughoutItems]
        exact ⟨readValue_legible hv, readElements_legible hrest⟩

/-- The members of an object that are read after legible entries are legible. -/
theorem readMembers_legible : ∀ {members : Members} {room : Nat} {entries : Document} {v : Value},
    readMembers room entries members = .ok v → entries.Legible → v.Throughout Value.Legible
  | .closed, _, _, _, h, legible => by
    cases h
    exact Document.legible_iff.1 legible
  | .cut _, _, _, _, h, _ | .unnamed _, _, _, _, h, _ => by cases h
  | .cons key _ tail, _, _, v, h, legible =>
    match key, tail, v, readMembers_cons_eq_ok_iff.1 h with
    | _, _, _, .code _ => trivial
    | _, .cons _ _ _, _, .codeFirst _ bindings => (readScope_legible bindings).throughout_code _
    | _, .cons _ _ _, _, .scopeFirst bindings _ => (readScope_legible bindings).throughout_code _
    | _, _, _, .typed _ _ announced read => typedReader?_legible announced read
    | _, _, _, .entry code scope plain read rest =>
      readMembers_legible rest
        (legible.put (not_mem_typedKeys code scope plain) (readValue_legible read))

/-- The scope of a code value that is read is legible. -/
theorem readScope_legible : ∀ {node : Node} {room : Nat} {d : Document},
    readScope room node = .ok d → d.Legible
  | .object _, _, _, h => by
    obtain ⟨inner, members, v, rfl, ⟨⟩, hv, hd⟩ := readScope_eq_ok_iff.1 h
    exact documentOf_legible hd (readMembers_legible hv Document.legible_nil)
  | .absent _, _, _, h | .misspelled _, _, _, h | .null, _, _, h | .boolean _, _, _, h
  | .number _, _, _, h | .string _, _, _, h | .array _, _, _, h => by
    obtain ⟨_, _, _, -, ⟨⟩, -⟩ := readScope_eq_ok_iff.1 h

end

/-- A document that is read is legible. -/
theorem readDocument_legible {node : Node} {room : Nat} {d : Document}
    (h : readDocument room node = .ok d) : d.Legible :=
  readScope_legible h

/-- Values by name, each of them legible. -/
def LegibleTable (table : Keyed Value) : Prop :=
  ∀ entry ∈ table, entry.2.Throughout Value.Legible

/-- A table that is read after legible values is legible. -/
theorem Json.Members.readTable_legible {room : Nat} : ∀ {members : Members} {table t : Keyed Value},
    members.readTable room table = .ok t → LegibleTable table → LegibleTable t
  | .closed, _, _, h, legible => by
    cases h
    exact legible
  | .cut _, _, _, h, _ | .unnamed _, _, _, h, _ => by cases h
  | .cons key value tail, table, t, h, legible => by
    rw [Members.readTable] at h
    obtain ⟨name, -, h⟩ := bind_eq_ok_iff.1 h
    obtain ⟨v, hv, h⟩ := bind_eq_ok_iff.1 h
    refine readTable_legible h fun entry mem => ?_
    rcases Keyed.mem_of_mem_put mem with rfl | mem
    · exact readValue_legible hv
    · exact legible entry mem

/-- A table that is read is legible. -/
theorem readTable_legible {room : Nat} {node : Node} {table : Keyed Value}
    (h : readTable room node = .ok table) : LegibleTable table := by
  unfold readTable at h
  split at h
  · cases h
  · exact Members.readTable_legible h fun _ mem => absurd mem List.not_mem_nil
  · exact absurd h wrongKind_ne_ok

end QueryPipeline
