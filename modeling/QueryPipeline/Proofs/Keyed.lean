import QueryPipeline.Keyed
import Mathlib.Data.List.Induction
import Mathlib.Data.List.Nodup

/-!
# Runs of updates on a keyed list

What `Keyed.put` does in one step, stated for whole lists of updates. Keys stay distinct
(`Keyed.nodup_keys_putAll`), they stand in order of first occurrence (`Keyed.keys_ofUpdates`), and
each has the value that it is given last (`Keyed.lookup_ofUpdates`). A run of updates with distinct
keys is a replacement in place followed by an extension (`Keyed.putAll_of_nodup`): an entry whose
key is updated takes the update's value at its old place, and the updates of new keys follow in
their own order.

What a keyed list says of the updates that built it is `Keyed.Summarizes`. Only one keyed list says
so (`Keyed.summarizes_iff`), so the same updates come to it again (`Keyed.putAll_ofUpdates_self`).
-/

namespace QueryPipeline.Keyed

variable {α β : Type}

/-! ## Keys -/

/-- An entry after an update is the update or was there before. -/
theorem mem_of_mem_put {entries : Keyed α} {key : String} {value : α} {entry : String × α}
    (h : entry ∈ entries.put key value) : entry = (key, value) ∨ entry ∈ entries := by
  induction entries with
  | nil => exact .inl (List.mem_singleton.1 h)
  | cons first rest ih =>
    rw [put] at h
    split at h
    · next same =>
      rcases List.mem_cons.1 h with rfl | h
      · exact .inl (by rw [same])
      · exact .inr (.tail _ h)
    · rcases List.mem_cons.1 h with rfl | h
      · exact .inr (.head _)
      · exact (ih h).imp_right (.tail _)

/-- A key that is given a value is there, and no other key comes or goes. -/
theorem mem_keys_put {entries : Keyed α} {key other : String} {value : α} :
    other ∈ (entries.put key value).keys ↔ other = key ∨ other ∈ entries.keys := by
  rw [keys_put]
  split
  · next h =>
    constructor
    · exact .inr
    · rintro (rfl | ho)
      · exact h
      · exact ho
  · rw [List.mem_append, List.mem_singleton, or_comm]

/-- The first update of a run, and the rest of them. -/
theorem putAll_cons (entries : Keyed α) (update : String × α) (rest : List (String × α)) :
    entries.putAll (update :: rest) = (entries.put update.1 update.2).putAll rest :=
  rfl

/-- An entry after a run of updates is one of them or was there before. -/
theorem mem_of_mem_putAll {entries : Keyed α} {updates : List (String × α)} {entry : String × α}
    (h : entry ∈ entries.putAll updates) : entry ∈ updates ∨ entry ∈ entries := by
  induction updates generalizing entries with
  | nil => exact .inr h
  | cons update rest ih =>
    rcases ih h with h | h
    · exact .inl (.tail _ h)
    · rcases mem_of_mem_put h with rfl | h
      · exact .inl (.head _)
      · exact .inr h

/-- A run of updates keeps the keys distinct. -/
theorem nodup_keys_putAll {entries : Keyed α} (updates : List (String × α))
    (distinct : entries.keys.Nodup) : (entries.putAll updates).keys.Nodup := by
  induction updates generalizing entries with
  | nil => exact distinct
  | cons update rest ih => exact ih (nodup_keys_put entries update.1 update.2 distinct)

/-- A keyed list that updates build has distinct keys. -/
theorem nodup_keys_ofUpdates (updates : List (String × α)) : (ofUpdates updates).keys.Nodup :=
  nodup_keys_putAll updates List.nodup_nil

/-- A run of updates has the keys that were there and those that it updates. -/
theorem mem_keys_putAll {entries : Keyed α} {updates : List (String × α)} {key : String} :
    key ∈ (entries.putAll updates).keys ↔ key ∈ entries.keys ∨ key ∈ keys updates := by
  induction updates generalizing entries with
  | nil => simp [putAll, keys]
  | cons update rest ih =>
    have hkeys : keys (update :: rest) = update.1 :: keys rest := rfl
    rw [putAll_cons, ih, mem_keys_put, hkeys, List.mem_cons]
    tauto

/-- A keyed list that updates build has the keys that they update. -/
theorem mem_keys_ofUpdates {updates : List (String × α)} {key : String} :
    key ∈ (ofUpdates updates).keys ↔ key ∈ keys updates := by
  rw [ofUpdates, mem_keys_putAll]
  simp [keys]

/-- The keys of a keyed list that updates build are those that they update, in order of first
occurrence. -/
theorem keys_ofUpdates (updates : List (String × α)) :
    (ofUpdates updates).keys = (keys updates).eraseDups := by
  induction updates using List.reverseRecOn with
  | nil => rfl
  | append_singleton before update ih =>
    have split : ofUpdates (before ++ [update]) = (ofUpdates before).put update.1 update.2 :=
      List.foldl_append
    have hkeys : keys (before ++ [update]) = keys before ++ [update.1] := List.map_append
    rw [split, keys_put, ih, hkeys, List.eraseDups_append]
    by_cases hold : update.1 ∈ keys before
    · simp [List.removeAll, hold]
    · simp [List.removeAll, hold, List.eraseDups_cons]

/-- The keys of a part of a keyed list are a part of its keys. -/
theorem keys_sublist {entries other : Keyed α} (h : entries.Sublist other) :
    entries.keys.Sublist other.keys :=
  h.map Prod.fst

/-! ## Look-ups -/

/-- A key that no entry has finds nothing. -/
theorem lookup_eq_none_of_not_mem {entries : Keyed α} {key : String} (h : key ∉ entries.keys) :
    entries.lookup key = none := by
  rw [List.lookup_eq_none_iff]
  intro entry hentry
  simp only [bne_iff_ne, ne_eq]
  rintro rfl
  exact h (List.mem_map_of_mem hentry)

/-- After a run of updates a look-up finds the last update of its key, or else what was there. -/
theorem lookup_putAll (entries : Keyed α) (updates : List (String × α)) (key : String) :
    (entries.putAll updates).lookup key =
      (List.lookup key updates.reverse).or (entries.lookup key) := by
  induction updates generalizing entries with
  | nil => rfl
  | cons update rest ih =>
    obtain ⟨name, value⟩ := update
    rw [putAll_cons, ih, lookup_put, List.reverse_cons, List.lookup_append, Option.or_assoc]
    congr 1
    by_cases hk : key = name
    · simp [hk]
    · simp [hk, List.lookup_cons, beq_eq_false_iff_ne.2 hk]

/-- The value of a key is the one that it is given last. -/
theorem lookup_ofUpdates (updates : List (String × α)) (key : String) :
    (ofUpdates updates).lookup key = List.lookup key updates.reverse := by
  rw [ofUpdates, lookup_putAll, List.lookup_nil, Option.or_none]

/-- A look-up after each entry is computed or dropped finds what its own entry computes. -/
theorem lookup_filterMap (f : String → α → Option β) {entries : Keyed α}
    (distinct : entries.keys.Nodup) (key : String) :
    List.lookup key (entries.filterMap fun entry => (f entry.1 entry.2).map (entry.1, ·)) =
      (entries.lookup key).bind (f key) := by
  induction entries with
  | nil => rfl
  | cons entry rest ih =>
    obtain ⟨name, value⟩ := entry
    simp only [keys, List.map_cons, List.nodup_cons] at distinct
    specialize ih distinct.2
    by_cases hname : key = name
    · subst hname
      have absent : List.lookup key rest = none := lookup_eq_none_of_not_mem distinct.1
      rw [absent] at ih
      cases hvalue : f key value with
      | none => simpa [List.filterMap_cons, hvalue] using ih
      | some computed => simp [hvalue]
    · have other : (key == name) = false := beq_eq_false_iff_ne.2 hname
      cases hvalue : f name value with
      | none => simpa [List.filterMap_cons, hvalue, List.lookup_cons, other] using ih
      | some computed => simpa [List.filterMap_cons, hvalue, List.lookup_cons, other] using ih

/-- The keys of the entries that are computed are keys of the entries there were. -/
theorem keys_filterMap_sublist (f : String → α → Option β) (entries : Keyed α) :
    (keys (entries.filterMap fun entry => (f entry.1 entry.2).map (entry.1, ·))).Sublist
      entries.keys := by
  induction entries with
  | nil => exact .slnil
  | cons entry rest ih =>
    cases hvalue : f entry.1 entry.2 with
    | none =>
      rw [List.filterMap_cons]
      simp only [hvalue, Option.map_none]
      exact ih.cons _
    | some computed =>
      rw [List.filterMap_cons]
      simp only [hvalue, Option.map_some]
      exact ih.cons_cons _

/-! ## Updates with distinct keys -/

/-- An update of a new key goes to the end. -/
theorem put_of_not_mem {entries : Keyed α} {key : String} {value : α} (h : key ∉ entries.keys) :
    entries.put key value = entries ++ [(key, value)] := by
  induction entries with
  | nil => rfl
  | cons entry rest ih =>
    simp only [keys, List.map_cons, List.mem_cons, not_or] at h
    have hne : entry.1 ≠ key := fun e => h.1 e.symm
    simp only [put, hne, if_false, List.cons_append]
    rw [ih h.2]

/-- An update of a key that is there replaces the value of its entry. -/
theorem put_of_mem {entries : Keyed α} {key : String} {value : α} (h : key ∈ entries.keys)
    (distinct : entries.keys.Nodup) :
    entries.put key value =
      entries.map fun entry => (entry.1, if entry.1 = key then value else entry.2) := by
  induction entries with
  | nil => cases h
  | cons entry rest ih =>
    simp only [keys, List.map_cons, List.nodup_cons] at distinct
    by_cases hk : entry.1 = key
    · have others : ∀ e ∈ rest, (e.1, if e.1 = key then value else e.2) = e := by
        intro e he
        have hne : e.1 ≠ key := by
          rintro rfl
          exact distinct.1 (hk ▸ List.mem_map_of_mem he)
        simp [hne]
      rw [List.map_cons, List.map_congr_left others, List.map_id']
      simp [put, hk]
    · simp only [keys, List.map_cons, List.mem_cons] at h
      have hrest : key ∈ keys rest := h.resolve_left fun e => hk e.symm
      rw [List.map_cons, ← ih hrest distinct.2]
      simp [put, hk]

/-- A run of updates with distinct keys replaces in place and then extends. -/
theorem putAll_of_nodup {entries : Keyed α} {updates : List (String × α)}
    (distinct : entries.keys.Nodup) (once : (keys updates).Nodup) :
    entries.putAll updates =
      (entries.map fun entry => (entry.1, (updates.lookup entry.1).getD entry.2)) ++
        updates.filter fun update => update.1 ∉ entries.keys := by
  induction updates generalizing entries with
  | nil => simp [putAll]
  | cons update rest ih =>
    obtain ⟨key, value⟩ := update
    simp only [keys, List.map_cons, List.nodup_cons] at once
    have absent : List.lookup key rest = none := lookup_eq_none_of_not_mem once.1
    rw [putAll_cons, ih (nodup_keys_put entries key value distinct) once.2]
    by_cases hk : key ∈ entries.keys
    · rw [keys_put, if_pos hk, put_of_mem hk distinct, List.map_map]
      congr 1
      · refine List.map_congr_left fun entry _ => ?_
        by_cases he : entry.1 = key
        · simp [he, absent]
        · simp [he, List.lookup_cons, beq_eq_false_iff_ne.2 he]
      · simp [hk]
    · rw [keys_put, if_neg hk, put_of_not_mem hk, List.map_append, List.append_assoc]
      congr 1
      · refine List.map_congr_left fun entry hentry => ?_
        have he : entry.1 ≠ key := by
          rintro rfl
          exact hk (List.mem_map_of_mem hentry)
        simp [List.lookup_cons, beq_eq_false_iff_ne.2 he]
      · have others : ∀ update ∈ rest, update.1 ≠ key := by
          rintro update hupdate rfl
          exact once.1 (List.mem_map_of_mem hupdate)
        simp only [List.map_cons, List.map_nil, absent, Option.getD_none, List.filter_cons, hk]
        simp only [not_false_eq_true, decide_true, if_true, List.singleton_append]
        congr 1
        refine List.filter_congr fun update hupdate => ?_
        simp [others update hupdate]

/-- Updates with distinct keys build the keyed list that they are. -/
theorem ofUpdates_of_nodup {updates : List (String × α)} (once : (keys updates).Nodup) :
    ofUpdates updates = updates := by
  have h : putAll [] updates = _ := putAll_of_nodup List.nodup_nil once
  simpa [ofUpdates, keys] using h

/-! ## What updates come to -/

/-- A look-up finds an entry of a list whose keys are distinct. -/
theorem lookup_eq_some_iff {entries : Keyed α} (distinct : entries.keys.Nodup) {key : String}
    {value : α} : entries.lookup key = some value ↔ (key, value) ∈ entries := by
  rw [List.lookup_eq_some_iff]
  constructor
  · rintro ⟨before, after, rfl, -⟩
    simp
  · intro mem
    obtain ⟨before, after, rfl⟩ := List.append_of_mem mem
    refine ⟨before, after, rfl, fun entry hentry => ?_⟩
    simp only [keys, List.map_append, List.map_cons, List.nodup_append, List.mem_map,
      List.mem_cons] at distinct
    rw [bne_iff_ne]
    exact (distinct.2.2 entry.1 ⟨entry, hentry, rfl⟩ key (.inl rfl)).symm

/-- A keyed list is known by its keys and what look-ups find. -/
theorem eq_of_lookup {entries other : Keyed α} (distinct : entries.keys.Nodup)
    (order : entries.keys = other.keys)
    (same : ∀ key, entries.lookup key = other.lookup key) : entries = other := by
  induction entries generalizing other with
  | nil =>
    cases other with
    | nil => rfl
    | cons => simp [keys] at order
  | cons entry rest ih =>
    cases other with
    | nil => simp [keys] at order
    | cons entry' rest' =>
      obtain ⟨key, value⟩ := entry
      obtain ⟨key', value'⟩ := entry'
      simp only [keys, List.map_cons, List.cons.injEq] at order
      obtain ⟨rfl, order⟩ := order
      have hvalue : value = value' := by simpa using same key
      simp only [keys, List.map_cons, List.nodup_cons] at distinct
      have hrest : rest = rest' := by
        refine ih distinct.2 order fun name => ?_
        by_cases h : name = key
        · subst h
          have absent : name ∉ keys rest' := by
            rw [keys, ← order]
            exact distinct.1
          rw [lookup_eq_none_of_not_mem distinct.1, lookup_eq_none_of_not_mem absent]
        · simpa [List.lookup_cons, beq_eq_false_iff_ne.2 h] using same name
      rw [hvalue, hrest]

/-- What a keyed list says of the updates that built it: each key that they give has one entry, the
keys stand in the order in which they are first given, and each has the value that it is given
last. -/
structure Summarizes (entries : Keyed α) (updates : List (String × α)) : Prop where
  distinct : entries.keys.Nodup
  order : entries.keys = (keys updates).eraseDups
  last : ∀ key value, (key, value) ∈ entries ↔
    ∃ before after, updates = before ++ (key, value) :: after ∧ key ∉ keys after

/-- The last update of a key is the one that is found from the end. -/
theorem lookup_reverse_eq_some_iff {updates : List (String × α)} {key : String} {value : α} :
    List.lookup key updates.reverse = some value ↔
      ∃ before after, updates = before ++ (key, value) :: after ∧ key ∉ keys after := by
  have absent (after : List (String × α)) :
      (∀ update ∈ after.reverse, (key != update.1) = true) ↔ key ∉ keys after := by
    simp only [keys, List.mem_reverse, bne_iff_ne, List.mem_map, not_exists, not_and]
    exact forall₂_congr fun _ _ => ne_comm
  rw [List.lookup_eq_some_iff]
  constructor
  · rintro ⟨after, before, split, h⟩
    refine ⟨before.reverse, after.reverse, ?_, (absent _).1 (by simpa using h)⟩
    simpa using congrArg List.reverse split
  · rintro ⟨before, after, rfl, h⟩
    exact ⟨after.reverse, before.reverse, by simp, (absent after).2 h⟩

/-- The keyed list that updates build is the one that says so of them. -/
theorem summarizes_iff {entries : Keyed α} {updates : List (String × α)} :
    entries.Summarizes updates ↔ entries = ofUpdates updates := by
  have built : (ofUpdates updates).Summarizes updates := by
    refine ⟨nodup_keys_ofUpdates updates, keys_ofUpdates updates, fun key value => ?_⟩
    rw [← lookup_eq_some_iff (nodup_keys_ofUpdates updates), lookup_ofUpdates,
      lookup_reverse_eq_some_iff]
  constructor
  · intro h
    refine eq_of_lookup h.distinct (h.order.trans built.order.symm) fun key => ?_
    ext value
    rw [lookup_eq_some_iff h.distinct, lookup_eq_some_iff built.distinct, h.last, built.last]
  · rintro rfl
    exact built

/-- Two runs of updates, one after the other. -/
theorem putAll_append (entries : Keyed α) (updates more : List (String × α)) :
    entries.putAll (updates ++ more) = (entries.putAll updates).putAll more :=
  List.foldl_append

/-- The updates that built a keyed list change nothing in it. -/
theorem putAll_ofUpdates_self (updates : List (String × α)) :
    (ofUpdates updates).putAll updates = ofUpdates updates := by
  have twice : (ofUpdates updates).putAll updates = ofUpdates (updates ++ updates) :=
    (putAll_append [] updates updates).symm
  have nothing_new : (keys updates).removeAll (keys updates) = [] := by simp [List.removeAll]
  refine eq_of_lookup (nodup_keys_putAll updates (nodup_keys_ofUpdates updates)) ?_ fun key => ?_
  · have hkeys : keys (updates ++ updates) = keys updates ++ keys updates := List.map_append
    rw [twice, keys_ofUpdates, keys_ofUpdates, hkeys, List.eraseDups_append, nothing_new,
      List.eraseDups_nil, List.append_nil]
  · rw [lookup_putAll, lookup_ofUpdates, Option.or_self]

/-- A keyed list is rebuilt from its entries. -/
theorem ofUpdates_ofUpdates (updates : List (String × α)) :
    ofUpdates (ofUpdates updates) = ofUpdates updates :=
  ofUpdates_of_nodup (nodup_keys_ofUpdates updates)

/-- Values are computed before an update or after it. -/
theorem map_put (f : α → β) (entries : Keyed α) (key : String) (value : α) :
    (entries.put key value).map (fun entry => (entry.1, f entry.2)) =
      put (entries.map fun entry => (entry.1, f entry.2)) key (f value) := by
  induction entries with
  | nil => rfl
  | cons entry rest ih =>
    by_cases h : entry.1 = key
    · simp [put, h]
    · simp [put, h, ih]

/-- Values are computed of the updates or of the keyed list that they build. -/
theorem map_ofUpdates (f : α → β) (updates : List (String × α)) :
    (ofUpdates updates).map (fun entry => (entry.1, f entry.2)) =
      ofUpdates (updates.map fun update => (update.1, f update.2)) := by
  induction updates using List.reverseRecOn with
  | nil => rfl
  | append_singleton before update ih =>
    rw [List.map_append, ofUpdates, ofUpdates, putAll_append, putAll_append]
    exact (map_put f _ _ _).trans (congrArg (put · update.1 (f update.2)) ih)

/-- Values do not change the order of the keys. -/
theorem keys_ofUpdates_map (f : α → β) (updates : List (String × α)) :
    keys (ofUpdates (updates.map fun update => (update.1, f update.2))) =
      (ofUpdates updates).keys := by
  rw [← map_ofUpdates, keys, List.map_map]
  rfl

end QueryPipeline.Keyed
