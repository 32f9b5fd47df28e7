/-!
# Keyed lists

A keyed list holds named entries in the order in which their names were first given. `Keyed.put`
gives a value to a name: a name that is present keeps its place and takes the new value, a new name
goes to the end. Documents, sort keys, projected fields and group outputs are all keyed lists, so
`Keyed.keys_put` and `Keyed.lookup_put` are the laws of order and content of each of them.
-/

namespace QueryPipeline

/-- Named entries in order of first occurrence. -/
abbrev Keyed (α : Type) := List (String × α)

namespace Keyed

variable {α : Type}

/-- The names of a keyed list, in order. -/
def keys (entries : Keyed α) : List String :=
  entries.map Prod.fst

/-- Gives `value` to `key`, in place if the key is present and at the end otherwise. -/
def put : Keyed α → String → α → Keyed α
  | [], key, value => [(key, value)]
  | (k, v) :: rest, key, value =>
    if k = key then (k, value) :: rest else (k, v) :: put rest key value

/-- Applies a list of updates from left to right. -/
def putAll (entries : Keyed α) (updates : List (String × α)) : Keyed α :=
  updates.foldl (fun acc update => acc.put update.1 update.2) entries

/-- The keyed list that a list of updates builds. -/
def ofUpdates (updates : List (String × α)) : Keyed α :=
  putAll [] updates

/-! ## Order and content of an update -/

/-- An update appends its key exactly when the key is new. -/
theorem keys_put (entries : Keyed α) (key : String) (value : α) :
    (entries.put key value).keys =
      if key ∈ entries.keys then entries.keys else entries.keys ++ [key] := by
  induction entries with
  | nil => simp [put, keys]
  | cons entry rest ih =>
    obtain ⟨k, v⟩ := entry
    by_cases h : k = key
    · simp [put, keys, h]
    · have h' : ¬ key = k := fun e => h e.symm
      simp only [keys] at ih
      by_cases hk : key ∈ rest.map Prod.fst <;> simp [put, keys, h, h', ih, hk]

/-- An update is what a later look-up of its key finds, and it changes no other look-up. -/
theorem lookup_put (entries : Keyed α) (key other : String) (value : α) :
    (entries.put key value).lookup other =
      if other = key then some value else entries.lookup other := by
  induction entries with
  | nil =>
    by_cases h : other = key
    · simp [put, h]
    · simp [put, List.lookup_cons, h, beq_eq_false_iff_ne.2 h]
  | cons entry rest ih =>
    obtain ⟨k, v⟩ := entry
    by_cases ho : other = k
    · subst ho
      by_cases h : other = key <;> simp [put, h]
    · have hb := beq_eq_false_iff_ne.2 ho
      by_cases h : k = key
      · subst h
        simp [put, List.lookup_cons, hb, ho]
      · simp [put, h, List.lookup_cons, hb, ih]

/-- An update keeps the keys distinct. -/
theorem nodup_keys_put (entries : Keyed α) (key : String) (value : α)
    (distinct : entries.keys.Nodup) : (entries.put key value).keys.Nodup := by
  rw [keys_put]
  split
  · exact distinct
  · next h =>
    refine List.nodup_append.2 ⟨distinct, by simp, ?_⟩
    intro a ha b hb
    simp only [List.mem_singleton] at hb
    exact fun e => h (hb ▸ e ▸ ha)

end Keyed

end QueryPipeline
