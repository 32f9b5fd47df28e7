import QueryPipeline.Proofs.Filter.Entry
import QueryPipeline.Proofs.Group.Document
import QueryPipeline.Proofs.Selection
import QueryPipeline.Proofs.Value.Carried
import QueryPipeline.Proofs.Value.Legible
import QueryPipeline.Service.Exchange

/-!
# Legible pipelines

The base predicate, the values of conditions and the functions of the service are read from JSON
and therefore legible, and so is what compiling makes of them: the keys that it adds announce no
typed value, and the labels that it takes from the client are plain names. Only the fields of a
projection and of a sort stage are any names that the client likes
(`Settings.legible_of_mem_stages`).
-/

namespace QueryPipeline

open Json

/-! ## Documents that compiling makes -/

/-- A plain name announces nothing. -/
theorem IsPlainName.not_mem_typedKeys {name : String} (plain : IsPlainName name) :
    name ∉ typedKeys := by
  have marked : ∀ key ∈ typedKeys, ¬ IsPlainName key := by decide
  exact fun announced => marked name announced plain

/-- A document of one entry whose key announces nothing is legible if its value is. -/
theorem Document.legible_single {key : String} {v : Value} (plain : key ∉ typedKeys)
    (h : v.Throughout Value.Legible) : (Document.single key v).Legible :=
  Document.legible_nil.put plain h

/-- A legible document is a legible value. -/
theorem Document.Legible.throughout {d : Document} (h : d.Legible) :
    (Value.document d).Throughout Value.Legible :=
  Document.legible_iff.1 h

/-- A document of updates is legible if they are. -/
theorem Document.legible_ofUpdates {updates : List (String × Value)}
    (plain : ∀ update ∈ updates, update.1 ∉ typedKeys)
    (h : ∀ update ∈ updates, update.2.Throughout Value.Legible) :
    Document.Legible (Keyed.ofUpdates updates) := by
  refine ⟨⟨Keyed.nodup_keys_ofUpdates updates, fun key mem => ?_⟩, ?_⟩
  · obtain ⟨update, hupdate, rfl⟩ := List.mem_map.1 (Keyed.mem_keys_ofUpdates.1 mem)
    exact plain update hupdate
  · rw [Value.throughoutEntries_iff]
    intro entry mem
    exact h entry ((Keyed.mem_of_mem_putAll mem).resolve_right List.not_mem_nil)

/-! ## Filters -/

/-- A member of a condition leaves the value, or writes one that is read. -/
theorem ConditionDraft.legible_of_run {room : Nat} {name : String} {draft next : ConditionDraft}
    {node : Node} (h : (field room name draft).run draft node = .ok next) :
    next.value = draft.value ∨ ∃ v, next.value = some v ∧ v.Throughout Value.Legible := by
  unfold field at h
  split at h
  case h_5 | h_6 =>
    obtain ⟨-, v, hread, rfl⟩ := FieldStep.run_once_eq_ok_iff.1 h
    exact .inr ⟨v, rfl, readValue_legible hread⟩
  case h_7 =>
    rw [FieldStep.eq_of_run_pass h]
    exact .inl rfl
  all_goals
    obtain ⟨-, _, -, rfl⟩ := FieldStep.run_once_eq_ok_iff.1 h
    exact .inl rfl

/-- The value of a condition that is read is legible. -/
theorem Condition.read_legible {room : Nat} {node : Node} {c : Condition}
    (h : Condition.read room node = .ok c) : c.value.Throughout Value.Legible := by
  have missing : Value.null.Throughout Value.Legible := trivial
  obtain ⟨inner, rfl⟩ := exists_room_of_readRecord h
  rcases readRecord_eq_ok_iff.1 h with ⟨items, rest, -, hparts, -⟩ | ⟨members, -, hparts⟩
  · simp only [bind_eq_ok_iff] at hparts
    obtain ⟨⟨_, _⟩, -, ⟨_, _⟩, -, ⟨v, _⟩, hvalue, hc⟩ := hparts
    cases pure_eq_ok_iff.1 hc
    exact Items.of_nextOr missing (fun _ _ => readValue_legible) hvalue
  · obtain ⟨draft, hdraft, hc⟩ := bind_eq_ok_iff.1 hparts
    cases pure_eq_ok_iff.1 hc
    exact Members.getD_of_readFields ConditionDraft.value missing
      (fun _ _ _ _ => ConditionDraft.legible_of_run) hdraft rfl

/-- A resolver all of whose functions stand for legible values. -/
def Resolver.Legible (resolver : Resolver) : Prop :=
  ∀ text, (resolver.resolve text).Throughout Value.Legible

/-- The resolver of a legible table is legible. -/
theorem Resolver.legible_ofTable {table : Keyed Value} (h : LegibleTable table) :
    (ofTable table).Legible := by
  intro text
  change ((table.lookup text).getD .null).Throughout Value.Legible
  cases found : table.lookup text with
  | none => trivial
  | some v =>
    obtain ⟨before, after, rfl, -⟩ := List.lookup_eq_some_iff.1 found
    exact h (text, v) (List.mem_append_right _ (.head _))

/-- A coerced value is legible. -/
theorem coerce_legible {resolver : Resolver} (h : resolver.Legible) {v : Value}
    (hv : v.Throughout Value.Legible) : (coerce resolver v).Throughout Value.Legible := by
  rcases coerce_eq_or resolver v with same | ⟨text, -, resolved⟩
  · exact same.symm ▸ hv
  · exact resolved.symm ▸ h text

/-- The predicate of a comparison with a legible operand is legible. -/
theorem Predicate.legible_compare {comparator : Comparator} {operand : Value}
    (h : operand.Throughout Value.Legible) :
    (Predicate.compare comparator operand).toDocument.Legible :=
  Document.legible_single (by cases comparator <;> decide) h

/-- The entry that a condition yields is legible. -/
theorem Condition.Yields.legible {resolver : Resolver} {policy : UnknownPolicy} {c : Condition}
    {entry : Entry} (h : c.Yields resolver policy entry) (functions : resolver.Legible)
    (value : c.value.Throughout Value.Legible) : entry.toDocument.Legible := by
  have labelled (label : PlainName) {predicate : Predicate}
      (h : predicate.toDocument.Legible) : (Entry.labelled label predicate).toDocument.Legible :=
    Document.legible_single label.plain.not_mem_typedKeys h.throughout
  cases h with
  | ignored => exact Document.legible_nil
  | @search text =>
    have operand : (Document.single "$search" (.string text)).Legible :=
      Document.legible_single (by decide) trivial
    exact Document.legible_single (by decide) operand.throughout
  | @pattern _ text build =>
    have first : (Document.single "$regex" (.string (build text))).Legible :=
      Document.legible_single (by decide) trivial
    have options : "$options" ∉ typedKeys := by decide
    exact labelled _ (first.put options (v := .string "i") trivial)
  | presence => exact labelled _ (Document.legible_single (by decide) trivial)
  | verbatim => exact labelled _ (Predicate.legible_compare value)
  | choice _ array => exact labelled _ (Predicate.legible_compare (array ▸ value))
  | coerced => exact labelled _ (Predicate.legible_compare (coerce_legible functions value))

/-- A conjunction of legible documents is legible. -/
theorem Filter.legible_conjunction {documents : List Document} (h : ∀ d ∈ documents, d.Legible) :
    (conjunction documents).Legible := by
  refine Document.legible_single (by decide) ?_
  rw [Value.Throughout, Value.throughoutItems_iff]
  refine ⟨trivial, fun v mem => ?_⟩
  obtain ⟨d, hd, rfl⟩ := List.mem_map.1 mem
  exact (h d hd).throughout

/-- The document of a filter of legible entries is legible. -/
theorem Filter.legible_toDocument {filter : Filter} (h : ∀ d ∈ filter.entries, d.Legible) :
    filter.toDocument.Legible := by
  unfold toDocument
  split
  · next only heq => exact h only (heq ▸ .head _)
  · exact legible_conjunction h

/-- The entries of a filter that is compiled from a text are legible. -/
theorem legible_of_compileFilter {resolver : Resolver} {policy : UnknownPolicy} {text : String}
    {filter : Filter} (h : compileFilter resolver policy text = .ok filter)
    (functions : resolver.Legible) : ∀ d ∈ filter.entries, d.Legible := by
  obtain ⟨conditions, hread, hcompile⟩ := bind_eq_ok_iff.1 h
  obtain ⟨-, entries⟩ := compileConditions_eq_ok_iff.1 hcompile
  intro d mem
  obtain ⟨c, hc, compiled⟩ := exists_mem_left_of_forall₂ entries mem
  obtain ⟨entry, yields, rfl⟩ := Condition.compile_eq_ok_iff.1 compiled
  obtain ⟨_, items, -, -, hitems⟩ :=
    readList_eq_ok_iff.1 (parse_eq_ok_iff.1 (orUnreadable_eq_ok_iff.1 hread)).1
  exact yields.legible functions
    (Items.forall_mem_of_readAll (fun _ _ => Condition.read_legible) hitems c hc)

/-! ## Groupings -/

/-- The expression of an accumulator is legible. -/
theorem Accumulator.Renders.legible {field : String} {accumulator : Accumulator} {v : Value}
    (h : accumulator.Renders field v) : v.Throughout Value.Legible := by
  have expression {key : String} (plain : key ∉ typedKeys) {operand : Value}
      (h : operand.Throughout Value.Legible) :
      (Value.document [(key, operand)]).Throughout Value.Legible :=
    (Document.legible_single plain h).throughout
  cases h <;> exact expression (by decide) trivial

namespace AggregationSpec

variable {policy : UnknownPolicy} {spec : AggregationSpec}

/-- The keys of the document of a grouping that compiles announce nothing. -/
theorem Compilable.not_mem_typedKeys (h : spec.Compilable policy) {key : String}
    (mem : key ∈ Keyed.keys spec.stage.toDocument) : key ∉ typedKeys := by
  rw [h.declares.keys, List.mem_append] at mem
  rcases mem with own | output
  · rcases List.mem_cons.1 own with rfl | own
    · decide
    · obtain ⟨_, -, rfl⟩ := List.mem_map.1 own
      decide
  · obtain ⟨known, hknown, rfl⟩ := List.mem_map.1 (List.mem_eraseDups.1 output)
    exact (h.isOpen_of_mem_known hknown).plain.not_mem_typedKeys

/-- The values in the document of a grouping that compiles are legible. -/
theorem Compilable.legible_of_mem (h : spec.Compilable policy) {entry : String × Value}
    (mem : entry ∈ spec.stage.toDocument) : entry.2.Throughout Value.Legible := by
  rw [h.toDocument_stage, List.mem_append] at mem
  rcases mem with own | output
  · rcases List.mem_cons.1 own with rfl | own
    · dsimp only [GroupStage.keyValue]
      split <;> trivial
    · obtain ⟨title, -, rfl⟩ := Option.map_eq_some_iff.1 (Option.mem_toList.1 own)
      have reference : (Document.single "$first" (.string (fieldReference title))).Legible :=
        Document.legible_single (by decide) trivial
      exact reference.throughout
  · obtain ⟨output, hmem, hentry⟩ := List.mem_filterMap.1 output
    obtain ⟨known, hknown, rfl⟩ := exists_known_of_mem_outputs hmem
    obtain ⟨rendered, hrendered, renders⟩ :=
      Accumulator.exists_expression?_eq_some (isKnown_of_mem_known hknown) known.field
    obtain ⟨v, hv, rfl⟩ := Option.map_eq_some_iff.1 hentry
    cases hv.symm.trans hrendered
    exact renders.legible

/-- The document of a grouping that compiles is legible. -/
theorem Compilable.legible (h : spec.Compilable policy) : spec.stage.toDocument.Legible :=
  ⟨⟨h.declares.distinct, fun _ => h.not_mem_typedKeys⟩,
    Value.throughoutEntries_iff.2 fun _ => h.legible_of_mem⟩

end AggregationSpec

/-- A group stage that is compiled from a text is legible. -/
theorem legible_of_compileAggregation {policy : UnknownPolicy} {text : String} {stage : GroupStage}
    (h : compileAggregation policy text = .ok (some stage)) : stage.toDocument.Legible := by
  unfold compileAggregation at h
  split at h
  · cases h
  · obtain ⟨spec, -, h⟩ := bind_eq_ok_iff.1 h
    obtain ⟨compiled, hcompiled, hstage⟩ := bind_eq_ok_iff.1 h
    cases pure_eq_ok_iff.1 hstage
    rw [AggregationSpec.compile_eq_unlessFault, unlessFault_eq_ok_iff] at hcompiled
    obtain ⟨clean, rfl⟩ := hcompiled
    exact (AggregationSpec.violations_eq_nil_iff.1 (List.head?_eq_none_iff.1 clean)).legible

/-! ## Stages -/

/-- No field that a stage projects or sorts by has a name that announces a typed value. -/
def Stage.FieldsUnmarked : Stage → Prop
  | .project body | .sort body => ∀ field ∈ Keyed.keys body, field ∉ typedKeys
  | _ => True

/-- The name of a stage announces nothing. -/
theorem Stage.name_not_mem_typedKeys (stage : Stage) : stage.name ∉ typedKeys := by
  unfold name
  split <;> decide

/-- What is related to the document of a stage and legible shows that no field is marked. -/
theorem Stage.fieldsUnmarked_of_related {R : Value → Value → Prop} (keeps : Value.KeepsDocuments R)
    {stage : Stage} {back : Document} (related : Value.RelatedEntries R stage.toDocument back)
    (legible : back.Legible) : stage.FieldsUnmarked := by
  have fields {body : Document} (hbody : stage.body = .document body) :
      ∀ field ∈ Keyed.keys body, field ∉ typedKeys := by
    rw [toDocument, hbody] at related
    obtain ⟨-, values⟩ := legible
    cases back with
    | nil => cases related
    | cons entry rest =>
      obtain ⟨name, w⟩ := entry
      obtain ⟨-, related, -⟩ := related
      cases w with
      | document others =>
        rw [Value.Related] at related
        rw [Value.ThroughoutEntries, Value.Throughout] at values
        rw [← related.keys_eq]
        exact values.1.1.plain
      | _ => cases keeps _ _ related
  cases stage with
  | project | sort => exact fields rfl
  | matching | group | skip | limit => trivial

/-- A document of numbers is legible if no key announces anything. -/
theorem Document.legible_ofUpdates_int32 {α : Type} {entries : Keyed α} {number : α → Int32}
    (plain : ∀ key ∈ Keyed.keys (Keyed.ofUpdates (entries.map fun entry =>
      (entry.1, Value.int32 (number entry.2)))), key ∉ typedKeys) :
    Document.Legible (Keyed.ofUpdates (entries.map fun entry =>
      (entry.1, Value.int32 (number entry.2)))) := by
  refine Document.legible_ofUpdates (fun update mem => ?_) fun update mem => ?_
  · exact plain _ (Keyed.mem_keys_ofUpdates.2 (List.mem_map_of_mem mem))
  · obtain ⟨entry, -, rfl⟩ := List.mem_map.1 mem
    trivial

namespace Compiler

variable {compiler : Compiler} {base : Document} {raw : RawRequest} {pipeline : CompiledPipeline}

/-- The document of the filter that a request compiles to is legible. -/
theorem legible_of_filterDocument? {filter : Option Filter} {d : Document}
    (compiled : optionally compiler.compileFilter (nonBlank? raw.filter) = .ok filter)
    (functions : compiler.resolver.Legible) (h : filterDocument? filter = some d) : d.Legible := by
  obtain ⟨f, hf, rfl⟩ := Option.map_eq_some_iff.1 h
  obtain ⟨hf, -⟩ := Option.filter_eq_some_iff.1 hf
  rcases optionally_eq_ok_iff.1 compiled with ⟨-, hnone⟩ | ⟨text, g, -, hg, hsome⟩
  · rw [hnone] at hf
    cases hf
  · rw [hsome] at hf
    cases hf
    exact Filter.legible_toDocument (legible_of_compileFilter hg functions)

/-- The documents of the stages that a request compiles to are legible. -/
theorem legible_of_mem_stages (compiled : compiler.compileRequest base raw = .ok pipeline)
    (predicate : base.Legible) (functions : compiler.resolver.Legible) {stage : Stage}
    (mem : stage ∈ pipeline.stages) (unmarked : stage.FieldsUnmarked) :
    stage.toDocument.Legible := by
  obtain ⟨filter, sort, group, hfilter, -, hgroup, rfl⟩ := compileRequest_eq_ok_iff.1 compiled
  refine Document.legible_single stage.name_not_mem_typedKeys ?_
  rcases mem_stages_assemble.1 mem with rfl | ⟨d, hd, rfl⟩ | ⟨p, -, -, rfl⟩ | ⟨g, hg, rfl⟩ |
    ⟨s, -, -, rfl⟩ | rfl | rfl
  · exact predicate.throughout
  · exact (legible_of_filterDocument? hfilter functions hd).throughout
  · exact (Document.legible_ofUpdates_int32 unmarked).throughout
  · cases htext : raw.aggregation with
    | none =>
      rw [htext] at hgroup
      cases hgroup
      cases hg
    | some text =>
      rw [htext] at hgroup
      unfold Option.elim Compiler.compileAggregation at hgroup
      dsimp only at hg
      rw [hg] at hgroup
      exact (legible_of_compileAggregation hgroup).throughout
  · exact (Document.legible_ofUpdates_int32 unmarked).throughout
  · trivial
  · trivial

/-- The count document that a request compiles to is legible. -/
theorem legible_count (compiled : compiler.compileRequest base raw = .ok pipeline)
    (predicate : base.Legible) (functions : compiler.resolver.Legible) : pipeline.count.Legible := by
  obtain ⟨filter, hfilter, hcount⟩ := count_eq_of_compileRequest compiled
  rw [hcount]
  unfold countDocument
  split
  · next d hd =>
    refine Filter.legible_conjunction fun document mem => ?_
    rcases List.mem_cons.1 mem with rfl | mem
    · exact predicate
    · cases List.mem_singleton.1 mem
      exact legible_of_filterDocument? hfilter functions hd
  · exact predicate

end Compiler

end QueryPipeline
