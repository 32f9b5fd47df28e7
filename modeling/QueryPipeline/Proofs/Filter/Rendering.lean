import QueryPipeline.Proofs.Filter.Entry

/-!
# A filter is known by its document

A filter is rendered as its only entry, or as the conjunction of its entries. For entries of any
form this would be ambiguous, since one entry under the key `$and` renders as a conjunction does. No
condition compiles to an entry with this key (`Condition.and_notMem_keys_of_compile`): labels are
plain, and the entries without a label have keys of their own. So the document of a compiled filter
tells how many entries the filter has and which they are
(`compileConditions_rendering_unambiguous`).

Documents may be compared with or without regard to the order of their keys. `Value.Discerns` is
what a comparison must tell apart for this.
-/

namespace QueryPipeline

/-! ## Comparing values -/

/-- A comparison that tells arrays apart by their elements in order, and documents by their keys and
what stands under each key. -/
structure Value.Discerns (same : Value → Value → Prop) : Prop where
  elements : ∀ {items items' : List Value}, same (.array items) (.array items') →
    List.Forall₂ same items items'
  entries : ∀ {d e : Document}, same (.document d) (.document e) →
    d.length = e.length ∧
      ∀ entry ∈ d, ∃ entry' ∈ e, entry'.1 = entry.1 ∧ same entry.2 entry'.2

/-- Equality tells values apart in full. -/
theorem Value.discerns_eq : Value.Discerns (· = ·) where
  elements h := by
    cases h
    exact List.forall₂_same.2 fun _ _ => rfl
  entries h := by
    cases h
    exact ⟨rfl, fun entry hentry => ⟨entry, hentry, rfl, rfl⟩⟩

namespace Value.Discerns

variable {same : Value → Value → Prop} (discerns : Value.Discerns same)
include discerns

/-- The keys of a document are keys of the documents that it is compared to. -/
theorem key_mem {d e : Document} (h : same (.document d) (.document e)) {key : String}
    (hkey : key ∈ Keyed.keys d) : key ∈ Keyed.keys e := by
  obtain ⟨entry, hentry, rfl⟩ := List.mem_map.1 hkey
  obtain ⟨entry', hentry', own, -⟩ := (discerns.entries h).2 entry hentry
  exact own ▸ List.mem_map_of_mem hentry'

/-- A document that is the same as a conjunction has the key of one. -/
theorem and_mem_of_conjunction {d : Document} {documents : List Document}
    (h : same (.document d) (.document (Filter.conjunction documents))) :
    "$and" ∈ Keyed.keys d := by
  obtain ⟨entry, rfl⟩ := List.length_eq_one_iff.1 (discerns.entries h).1
  have own := discerns.key_mem h (List.mem_singleton_self entry.1)
  exact List.mem_singleton.2 (List.mem_singleton.1 own).symm

/-- Two conjunctions that are the same join the same documents. -/
theorem of_conjunction {documents documents' : List Document}
    (h : same (.document (Filter.conjunction documents))
      (.document (Filter.conjunction documents'))) :
    List.Forall₂ (fun d e => same (.document d) (.document e)) documents documents' := by
  obtain ⟨entry', hentry', -, joined⟩ := (discerns.entries h).2 _ (List.mem_singleton_self _)
  cases List.mem_singleton.1 hentry'
  have elements := discerns.elements joined
  rwa [List.forall₂_map_left_iff, List.forall₂_map_right_iff] at elements

end Value.Discerns

/-! ## Entries that are no conjunction -/

/-- No entry has the key of a conjunction. -/
theorem Entry.and_notMem_keys (entry : Entry) : "$and" ∉ Keyed.keys entry.toDocument := by
  intro h
  cases entry with
  | everything => exact List.not_mem_nil h
  | search text =>
    have other : "$and" ≠ "$text" := by decide
    exact other (List.mem_singleton.1 h)
  | labelled label predicate =>
    exact label.name_ne (by decide) (List.mem_singleton.1 h).symm

/-- No condition compiles to an entry with the key of a conjunction. -/
theorem Condition.and_notMem_keys_of_compile {resolver : Resolver} {policy : UnknownPolicy}
    {c : Condition} {d : Document} (h : c.compile resolver policy = .ok d) :
    "$and" ∉ Keyed.keys d := by
  obtain ⟨entry, -, rfl⟩ := compile_eq_ok_iff.1 h
  exact entry.and_notMem_keys

namespace Filter

/-- A filter none of whose entries could be taken for a conjunction. -/
def Unmistakable (filter : Filter) : Prop :=
  ∀ d ∈ filter.entries, "$and" ∉ Keyed.keys d

/-- A filter of conditions is unmistakable. -/
theorem unmistakable_of_compile {resolver : Resolver} {policy : UnknownPolicy}
    {conditions : List Condition} {filter : Filter}
    (h : compileConditions resolver policy conditions = .ok filter) : filter.Unmistakable := by
  intro d hd
  obtain ⟨c, -, compiled⟩ := exists_mem_left_of_forall₂ (compileConditions_eq_ok_iff.1 h).2 hd
  exact Condition.and_notMem_keys_of_compile compiled

/-- A filter is rendered as its only entry or as a conjunction. -/
theorem toDocument_cases (filter : Filter) :
    (∃ only, filter.entries = [only] ∧ filter.toDocument = only) ∨
      filter.toDocument = conjunction filter.entries := by
  unfold toDocument
  split
  · next only hentries => exact .inl ⟨only, hentries, rfl⟩
  · exact .inr rfl

/-- Unmistakable filters that render alike have the same entries. -/
theorem Unmistakable.entries_same {filter filter' : Filter} (h : filter.Unmistakable)
    (h' : filter'.Unmistakable) {same : Value → Value → Prop} (discerns : Value.Discerns same)
    (rendered : same (.document filter.toDocument) (.document filter'.toDocument)) :
    List.Forall₂ (fun d e => same (.document d) (.document e)) filter.entries filter'.entries := by
  rcases filter.toDocument_cases with ⟨only, hentries, hdocument⟩ | hdocument <;>
    rcases filter'.toDocument_cases with ⟨only', hentries', hdocument'⟩ | hdocument' <;>
    rw [hdocument, hdocument'] at rendered
  · rw [hentries, hentries']
    exact .cons rendered .nil
  · have own : "$and" ∈ Keyed.keys only := discerns.and_mem_of_conjunction rendered
    exact absurd own (h only (hentries ▸ .head _))
  · have own : "$and" ∈ Keyed.keys only' := discerns.key_mem rendered (.head _)
    exact absurd own (h' only' (hentries' ▸ .head _))
  · exact discerns.of_conjunction rendered

end Filter

/-! ## Filters of conditions -/

/-- Conditions that compile to the same entries compile alike, place by place. -/
theorem Condition.compile_eq_of_entries {resolver resolver' : Resolver}
    {policy policy' : UnknownPolicy} {conditions conditions' : List Condition}
    {entries : List Document}
    (h : List.Forall₂ (fun c d => c.compile resolver policy = .ok d) conditions entries)
    (h' : List.Forall₂ (fun c d => c.compile resolver' policy' = .ok d) conditions' entries) :
    List.Forall₂ (fun c c' => c.compile resolver policy = c'.compile resolver' policy')
      conditions conditions' := by
  induction h generalizing conditions' with
  | nil =>
    cases h'
    exact .nil
  | cons compiled _ ih =>
    cases h' with
    | cons compiled' rest' => exact .cons (compiled.trans compiled'.symm) (ih rest')

/-- Two compiled filters that render alike are the same, whatever the resolvers and policies were:
they have the same entries in the same order, one for each condition, and the conditions at each
place compile to the same entry. Where documents are compared without regard to the order of their
keys, filters whose documents are the same have entries that are the same, place by place. -/
theorem compileConditions_rendering_unambiguous {resolver resolver' : Resolver}
    {policy policy' : UnknownPolicy} {conditions conditions' : List Condition}
    {filter filter' : Filter} (h : compileConditions resolver policy conditions = .ok filter)
    (h' : compileConditions resolver' policy' conditions' = .ok filter') :
    (filter.toDocument = filter'.toDocument →
      filter.entries = filter'.entries ∧
      List.Forall₂ (fun c c' => c.compile resolver policy = c'.compile resolver' policy')
        conditions conditions') ∧
    ∀ same, Value.Discerns same →
      same (.document filter.toDocument) (.document filter'.toDocument) →
      List.Forall₂ (fun d e => same (.document d) (.document e)) filter.entries
        filter'.entries := by
  have unmistakable := Filter.unmistakable_of_compile h
  have unmistakable' := Filter.unmistakable_of_compile h'
  refine ⟨fun rendered => ?_, fun same discerns => unmistakable.entries_same unmistakable' discerns⟩
  have entries : filter.entries = filter'.entries := by
    rw [← List.forall₂_eq_eq_eq]
    refine (unmistakable.entries_same unmistakable' Value.discerns_eq ?_).imp fun d e hde => ?_
    · rw [rendered]
    · exact Value.document.inj hde
  refine ⟨entries, Condition.compile_eq_of_entries (compileConditions_eq_ok_iff.1 h).2 ?_⟩
  rw [entries]
  exact (compileConditions_eq_ok_iff.1 h').2

/-- The name of a function and what it stands for render alike, and so do two unknown operators. -/
theorem compileConditions_rendering_unambiguous_function_name :
    let resolver : Resolver := .ofTable [("today", .array [])]
    let conditions : List Condition := [⟨"a", .eq, .string "today"⟩, ⟨"$b", .unknown "near", .null⟩]
    let conditions' : List Condition := [⟨"a", .equal, .array []⟩, ⟨"", .unknown "", .int32 1⟩]
    ∃ filter filter', compileConditions resolver .ignore conditions = .ok filter ∧
      compileConditions .noop .ignore conditions' = .ok filter' ∧
      filter.toDocument = filter'.toDocument ∧ filter.entries = filter'.entries := by
  intro resolver conditions conditions'
  have h : compileConditions resolver .ignore conditions =
      .ok ⟨[[("a", .document [("$eq", .array [])])], []]⟩ := rfl
  have h' : compileConditions .noop .ignore conditions' =
      .ok ⟨[[("a", .document [("$eq", .array [])])], []]⟩ := rfl
  exact ⟨_, _, h, h', rfl, ((compileConditions_rendering_unambiguous h h').1 rfl).1⟩

/-- Entries that no conditions compile to may render alike and differ. -/
example : (⟨[Filter.conjunction [[], []]]⟩ : Filter).toDocument = Filter.toDocument ⟨[[], []]⟩ :=
  rfl

end QueryPipeline
