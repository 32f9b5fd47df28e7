import Mathlib
import QueryPipeline.Proofs.Assembly
import QueryPipeline.Proofs.Filter.Entry

/-!
# Which records a compiled request selects

An `Evaluator` stands for the store: it says which records a predicate selects, and all that is
asked of it is that the empty predicate selects every record and that a conjunction selects what
each of its members selects. A compiled request writes one conjunction in several ways, as the only
entry of a filter, as a list of entries, as two stages and as a count document, and leaves it out
where nothing constrains. `compileRequest_selects` says that all of them select the same records:
those of the base predicate that every entry of the client's filter admits.
-/

namespace QueryPipeline

universe u

/-- How a store decides which records a predicate selects. -/
structure Evaluator (Record : Type u) where
  Selects : Document → Record → Prop
  /-- The empty predicate selects every record. -/
  selects_empty (record : Record) : Selects [] record
  /-- A conjunction selects the records that each of its members selects; there must be one. -/
  selects_and (members : List Document) (record : Record) (some_member : members ≠ []) :
    Selects [("$and", .array (members.map .document))] record ↔
      ∀ d ∈ members, Selects d record

/-- The conditions of a request's filter; a filter that is absent or blank has none. -/
def RawRequest.conditions (raw : RawRequest) : Except Json.ReadError (List Condition) :=
  match Compiler.nonBlank? raw.filter with
  | none => .ok []
  | some text => Json.parse (Json.readList Condition.read) text

/-- The entries of a filter that may be absent. -/
def Filter.entriesOf : Option Filter → List Document
  | none => []
  | some filter => filter.entries

section
variable {Record : Type u} (store : Evaluator Record) {record : Record}

/-! ## The forms of one conjunction -/

/-- The document of a filter selects what each of its entries selects. -/
theorem Evaluator.selects_toDocument_iff {filter : Filter} (h : filter.entries ≠ []) :
    store.Selects filter.toDocument record ↔ ∀ d ∈ filter.entries, store.Selects d record := by
  unfold Filter.toDocument
  split
  · next only hentries => simp [hentries]
  · exact store.selects_and filter.entries record h

/-- The entries of a filter that constrains nothing select every record. -/
theorem Evaluator.selects_of_isEmpty {filter : Filter} (h : filter.isEmpty = true) {d : Document}
    (hd : d ∈ filter.entries) : store.Selects d record := by
  have hnil : d = [] := List.isEmpty_iff.1 (List.all_eq_true.1 h d hd)
  rw [hnil]
  exact store.selects_empty record

/-- The document of a filter, if the filter has one, selects what each entry selects. -/
theorem Evaluator.selects_filterDocument?_iff (filter : Option Filter) (record : Record) :
    (∀ d, filterDocument? filter = some d → store.Selects d record) ↔
      ∀ d ∈ Filter.entriesOf filter, store.Selects d record := by
  cases filter with
  | none => simp [filterDocument?, Filter.entriesOf]
  | some filter =>
    cases hempty : filter.isEmpty with
    | true =>
      have all : ∀ d ∈ filter.entries, store.Selects d record :=
        fun d hd => store.selects_of_isEmpty hempty hd
      simpa [filterDocument?, hempty, Filter.entriesOf] using all
    | false =>
      have constrains : filter.entries ≠ [] := by
        intro hnil
        simp [Filter.isEmpty, hnil] at hempty
      simpa [filterDocument?, hempty, Filter.entriesOf] using
        store.selects_toDocument_iff constrains

/-- The count document selects what the base predicate and the filter's document select. -/
theorem Evaluator.selects_countDocument_iff (base : Document) (filter : Option Document) :
    store.Selects (countDocument base filter) record ↔
      store.Selects base record ∧ ∀ d, filter = some d → store.Selects d record := by
  cases filter with
  | none => simp [countDocument]
  | some d =>
    have h := store.selects_and [base, d] record (by simp)
    simpa [countDocument, Filter.conjunction, Document.single] using h

end

/-! ## Compiled requests -/

section
variable {compiler : Compiler} {base : Document} {raw : RawRequest} {filter : Option Filter}

/-- The filter that a request compiles to has one entry for each condition of the request, the
document that this condition compiles to. -/
theorem Compiler.conditions_of_compileFilter
    (h : optionally compiler.compileFilter (nonBlank? raw.filter) = .ok filter) :
    ∃ conditions, raw.conditions = .ok conditions ∧
      List.Forall₂ (fun c d => c.compile compiler.resolver compiler.options.unknown = .ok d)
        conditions (Filter.entriesOf filter) := by
  unfold RawRequest.conditions
  rcases optionally_eq_ok_iff.1 h with ⟨habsent, rfl⟩ | ⟨text, f, htext, hf, rfl⟩
  · exact ⟨[], by rw [habsent], .nil⟩
  · rw [htext]
    unfold Compiler.compileFilter QueryPipeline.compileFilter at hf
    obtain ⟨conditions, hread, hf⟩ := bind_eq_ok_iff.1 hf
    refine ⟨conditions, orUnreadable_eq_ok_iff.1 hread, ?_⟩
    exact (compileConditions_eq_ok_iff.1 hf).2

/-- The count document of a compiled request is settled by the base predicate and the filter that
the request compiles to. -/
theorem Compiler.count_eq_of_compileRequest {pipeline : CompiledPipeline}
    (h : compiler.compileRequest base raw = .ok pipeline) :
    ∃ filter, optionally compiler.compileFilter (nonBlank? raw.filter) = .ok filter ∧
      pipeline.count = countDocument base (filterDocument? filter) := by
  obtain ⟨filter, sort, group, hfilter, -, -, rfl⟩ := compileRequest_eq_ok_iff.1 h
  exact ⟨filter, hfilter, rfl⟩

/-- The count document and the predicates of the pipeline select the same records: those that the
base predicate and each entry of the client's filter select. The pipeline begins with the base
predicate as it is, and the count document changes with no part of the request but the filter. -/
theorem compileRequest_selects {Record : Type u} (store : Evaluator Record)
    {pipeline : CompiledPipeline} (h : compiler.compileRequest base raw = .ok pipeline) :
    ∃ conditions entries, raw.conditions = .ok conditions ∧
      List.Forall₂ (fun c d => c.compile compiler.resolver compiler.options.unknown = .ok d)
        conditions entries ∧
      (∀ record, List.TFAE [store.Selects pipeline.count record,
        ∀ d, .matching d ∈ pipeline.stages → store.Selects d record,
        store.Selects base record ∧ ∀ d ∈ entries, store.Selects d record]) ∧
      pipeline.stages.head? = some (.matching base) ∧
      ∀ raw' pipeline', raw'.filter = raw.filter →
        compiler.compileRequest base raw' = .ok pipeline' → pipeline'.count = pipeline.count := by
  obtain ⟨filter, sort, group, hfilter, -, -, rfl⟩ := Compiler.compileRequest_eq_ok_iff.1 h
  obtain ⟨conditions, hread, hcompiled⟩ := Compiler.conditions_of_compileFilter hfilter
  refine ⟨conditions, _, hread, hcompiled, fun record => ?_, head?_stages_assemble _ _ _, ?_⟩
  · have entries := store.selects_filterDocument?_iff filter record
    tfae_have 1 ↔ 3 := by
      rw [← entries]
      exact store.selects_countDocument_iff base _
    tfae_have 2 ↔ 3 := by
      rw [← entries]
      constructor
      · intro all
        exact ⟨all base (matching_mem_stages_assemble.2 (.inl rfl)),
          fun d hd => all d (matching_mem_stages_assemble.2 (.inr hd))⟩
      · rintro ⟨hbase, hclient⟩ d hd
        rcases matching_mem_stages_assemble.1 hd with rfl | hd
        · exact hbase
        · exact hclient d hd
    tfae_finish
  · intro raw' pipeline' same h'
    obtain ⟨filter', hfilter', hcount⟩ := Compiler.count_eq_of_compileRequest h'
    rw [same, hfilter] at hfilter'
    cases hfilter'
    exact hcount

end

/-! ## A store to select from -/

/-- A predicate names a field if one of its entries stands under it, or one of the members that it
joins names it. -/
inductive Document.Names : Document → String → Prop
  | field {d : Document} {label : String} {v : Value} (entry : (label, v) ∈ d)
      (plain : IsPlainName label) : Document.Names d label
  | joined {members : List Document} {d : Document} {label : String} (member : d ∈ members)
      (names : Document.Names d label) :
      Document.Names [("$and", .array (members.map .document))] label

/-- A conjunction names the fields that its members name. -/
theorem Document.names_and_iff {members : List Document} {label : String} :
    Document.Names [("$and", .array (members.map .document))] label ↔
      ∃ d ∈ members, d.Names label := by
  constructor
  · intro names
    generalize hjoined : [("$and", Value.array (members.map .document))] = joined at names
    cases names with
    | field entry plain =>
      rw [← hjoined, List.mem_singleton] at entry
      cases entry
      exact absurd plain (by decide)
    | joined member names =>
      simp only [List.cons.injEq, Prod.mk.injEq, Value.array.injEq, and_true, true_and] at hjoined
      have hinj : Function.Injective Value.document := fun _ _ => Value.document.inj
      rw [List.map_injective_iff.2 hinj hjoined]
      exact ⟨_, member, names⟩
  · rintro ⟨d, member, names⟩
    exact .joined member names

/-- The store whose records are lists of fields, and in which a predicate selects the records that
have every field it names. -/
def Evaluator.fields : Evaluator (List String) where
  Selects d record := ∀ label, d.Names label → label ∈ record
  selects_empty record := by
    intro label names
    cases names with
    | field entry => cases entry
  selects_and members record _ := by
    simp only [Document.names_and_iff]
    constructor
    · intro h d member label names
      exact h label ⟨d, member, names⟩
    · rintro h label ⟨d, member, names⟩
      exact h d member label names

/-- A filter of an entry that constrains and one that admits everything, on the second page. -/
theorem compileRequest_selects_mixed_filter :
    let compiler : Compiler := ⟨.noop, .default⟩
    let base : Document := [("tenant", .document [("$exists", .boolean true)])]
    let text := "[\x7b\"label\":\"email\",\"operation\":\"not Empty\"\x7d,\x7b\x7d]"
    let raw : RawRequest := ⟨some text, none, none, none, some "2", none⟩
    let email : Document := [("email", .document [("$exists", .boolean true)])]
    let client : Document := [("$and", .array [.document email, .document []])]
    let pipeline : CompiledPipeline := ⟨[.matching base, .matching client, .skip 10, .limit 10],
      [("$and", .array [.document base, .document client])]⟩
    compiler.compileRequest base raw = .ok pipeline ∧
      ∀ record, List.TFAE [Evaluator.fields.Selects pipeline.count record,
        ∀ d, .matching d ∈ pipeline.stages → Evaluator.fields.Selects d record,
        Evaluator.fields.Selects base record ∧
          ∀ d ∈ [email, []], Evaluator.fields.Selects d record] := by
  intro compiler base text raw email client pipeline
  have h : compiler.compileRequest base raw = .ok pipeline := by cbv
  obtain ⟨conditions, entries, hread, hcompiled, selects, -⟩ :=
    compileRequest_selects Evaluator.fields h
  have hconditions : raw.conditions =
      .ok [⟨"email", .present, .null⟩, ⟨"", .unknown "", .null⟩] := by cbv
  cases hread.symm.trans hconditions
  have hentries : entries = [email, []] := by
    simp only [List.forall₂_cons_left_iff, List.forall₂_nil_left_iff] at hcompiled
    obtain ⟨_, _, h₁, ⟨_, _, h₂, rfl, rfl⟩, rfl⟩ := hcompiled
    cases h₁
    cases h₂
    rfl
  exact ⟨h, hentries ▸ selects⟩

end QueryPipeline
