import QueryPipeline.Proofs.Filter.Fault
import QueryPipeline.Proofs.Group.Spec
import QueryPipeline.Proofs.Parts
import QueryPipeline.Proofs.Sort
import QueryPipeline.Proofs.Unknown.Names

/-!
# Strict and lenient compilers

A strict compiler refuses names that it does not know, a lenient one passes over them, and they
differ in nothing else: what the strict one comes to is what the lenient one comes to, or else an
error about an unknown name (`Tightens`). The relation is kept by chains, lists and folds of steps,
so it need be seen only where a policy is looked at: at a condition, a sort key and an output.
`compileRequest_strict` says so of requests, and says when the strict compiler meets an unknown
name: when one stands in a part that can be read, before anything else that is wrong.
-/

namespace QueryPipeline

open Json

/-- An error about a name that is not known. -/
inductive CompileError.IsUnknownName : CompileError → Prop
  | operator (name : String) : IsUnknownName (.unknownOperator name)
  | accumulator (name : String) : IsUnknownName (.unknownAccumulator name)
  | direction (name : String) : IsUnknownName (.unknownDirection name)

/-! ## Strict outcomes -/

variable {α β : Type}

/-- The outcome of a strict step against that of a lenient one: the same, or an error about an
unknown name. -/
def Tightens (strict lenient : Except CompileError α) : Prop :=
  strict = lenient ∨ ∃ e, strict = .error e ∧ e.IsUnknownName

namespace Tightens

/-- A step that looks at no policy. -/
theorem refl (outcome : Except CompileError α) : Tightens outcome outcome :=
  .inl rfl

/-- A chain is as strict as its steps. -/
theorem bind {x y : Except CompileError α} {f g : α → Except CompileError β} (h : Tightens x y)
    (step : ∀ a, Tightens (f a) (g a)) : Tightens (x >>= f) (y >>= g) := by
  rcases h with rfl | ⟨e, rfl, unknown⟩
  · cases x with
    | error e => exact .inl rfl
    | ok a => exact step a
  · exact .inr ⟨e, rfl, unknown⟩

/-- A result that is changed is as strict as the step. -/
theorem map {x y : Except CompileError α} (f : α → β) (h : Tightens x y) :
    Tightens (x.map f) (y.map f) := by
  rcases h with rfl | ⟨e, rfl, unknown⟩
  · exact .inl rfl
  · exact .inr ⟨e, rfl, unknown⟩

/-- A list is compiled as strictly as its elements. -/
theorem mapM {f g : α → Except CompileError β} (step : ∀ a, Tightens (f a) (g a)) (xs : List α) :
    Tightens (xs.mapM f) (xs.mapM g) := by
  induction xs with
  | nil => exact refl _
  | cons x xs ih =>
    rw [List.mapM_cons, List.mapM_cons]
    exact bind (step x) fun b => bind ih fun _ => refl _

/-- A fold is as strict as its steps. -/
theorem foldlM {f g : β → α → Except CompileError β} (step : ∀ b a, Tightens (f b a) (g b a))
    (xs : List α) (b : β) : Tightens (xs.foldlM f b) (xs.foldlM g b) := by
  induction xs generalizing b with
  | nil => exact refl _
  | cons x xs ih =>
    rw [List.foldlM_cons, List.foldlM_cons]
    exact bind (step b x) ih

end Tightens

/-! ## Where the policy is looked at -/

/-- A condition is refused for its operator alone. -/
theorem Condition.compile_tightens (resolver : Resolver) (c : Condition) :
    Tightens (c.compile resolver .reject) (c.compile resolver .ignore) := by
  unfold compile
  cases c.operator with
  | unknown name => exact .inr ⟨_, rfl, .operator name⟩
  | _ => exact .refl _

/-- A sort key is refused for its direction alone. -/
theorem SortStage.add_tightens (stage : SortStage) (spec : SortSpec) :
    Tightens (stage.add .reject spec) (stage.add .ignore spec) := by
  unfold add
  cases SortDirection.ofName? spec.direction with
  | none => exact .inr ⟨_, rfl, .direction spec.direction⟩
  | some direction => exact .refl _

/-- An output is refused for its accumulator, where it is not refused for its name. -/
theorem GroupStage.add_tightens (stage : GroupStage) (spec : AggregatorSpec) :
    Tightens (stage.add .reject spec) (stage.add .ignore spec) := by
  unfold add
  cases spec.accumulator with
  | unknown name => exact .inr ⟨_, rfl, .accumulator name⟩
  | _ => exact .refl _

/-- Conditions are compiled as strictly as each of them. -/
theorem compileConditions_tightens (resolver : Resolver) (conditions : List Condition) :
    Tightens (compileConditions resolver .reject conditions)
      (compileConditions resolver .ignore conditions) := by
  cases conditions with
  | nil => exact .refl _
  | cons c rest =>
    exact .bind (.mapM (Condition.compile_tightens resolver) _) fun _ => .refl _

/-- The text of a filter is compiled as strictly as its conditions. -/
theorem compileFilter_tightens (resolver : Resolver) (text : String) :
    Tightens (compileFilter resolver .reject text) (compileFilter resolver .ignore text) :=
  .bind (.refl _) (compileConditions_tightens resolver)

/-- The text of sort keys is compiled as strictly as each of them. -/
theorem compileSort_tightens (text : String) :
    Tightens (compileSort .reject text) (compileSort .ignore text) :=
  .bind (.refl _) fun specs => .foldlM SortStage.add_tightens specs _

/-- A grouping is compiled as strictly as its outputs. -/
theorem AggregationSpec.compile_tightens (spec : AggregationSpec) :
    Tightens (spec.compile .reject) (spec.compile .ignore) := by
  rw [compile_eq, compile_eq]
  exact .bind (.refl _) fun _ => .foldlM GroupStage.add_tightens _ _

/-- The text of a grouping is compiled as strictly as the grouping. -/
theorem compileAggregation_tightens (text : String) :
    Tightens (compileAggregation .reject text) (compileAggregation .ignore text) := by
  unfold compileAggregation
  split
  · exact .refl _
  · exact .bind (.refl _) fun spec => .bind spec.compile_tightens fun _ => .refl _

/-- A part that may be absent is compiled as strictly as its text. -/
theorem Compiler.optionally_tightens {strict lenient : String → Except CompileError α}
    (h : ∀ text, Tightens (strict text) (lenient text)) (part : Option String) :
    Tightens (optionally strict part) (optionally lenient part) := by
  cases part with
  | none => exact .refl _
  | some text => exact (h text).map some

/-- A request is compiled as strictly as its parts. -/
theorem Compiler.compileRequest_tightens (resolver : Resolver) (size : Int64) (base : Document)
    (raw : RawRequest) :
    Tightens ((⟨resolver, ⟨.reject, size⟩⟩ : Compiler).compileRequest base raw)
      ((⟨resolver, ⟨.ignore, size⟩⟩ : Compiler).compileRequest base raw) := by
  rw [compileRequest_eq, compileRequest_eq]
  refine .bind (optionally_tightens (compileFilter_tightens resolver) _) fun filter =>
    .bind (optionally_tightens compileSort_tightens _) fun sort => .bind ?_ fun _ => .refl _
  cases raw.aggregation with
  | none => exact .refl _
  | some text => exact compileAggregation_tightens text

/-! ## The first unknown name -/

/-- An unknown name that a strict compiler meets in a part of a request: the part is written and can
be read, what stands before the name in the part is accepted, and the name is the client's own word,
the empty one if it is missing. The error carries the name. -/
inductive RawRequest.MeetsUnknown (resolver : Resolver) (raw : RawRequest) :
    Part → CompileError → Prop
  | operator {text name : String} {before after : List Condition} {c : Condition}
      (written : Written raw.filter text)
      (reads : parse (readList Condition.read) text = .ok (before ++ c :: after))
      (accepted : ∀ c' ∈ before, ∃ d, c'.compile resolver .reject = .ok d)
      (word : c.operator = .ofName name) (unknown : name ∉ Operator.known) :
      RawRequest.MeetsUnknown resolver raw .filter (.unknownOperator name)
  | direction {text : String} {before after : List SortSpec} {spec : SortSpec}
      (written : Written raw.sort text)
      (reads : parse (readList SortSpec.read) text = .ok (before ++ spec :: after))
      (accepted : ∀ spec' ∈ before, spec'.direction ∈ SortDirection.known)
      (unknown : spec.direction ∉ SortDirection.known) :
      RawRequest.MeetsUnknown resolver raw .sort (.unknownDirection spec.direction)
  /-- The names of the key and of the title are checked before any output. -/
  | accumulator {text name groupBy : String} {title : Option String}
      {before after : List AggregatorSpec} {output : AggregatorSpec}
      (written : Written raw.aggregation text)
      (reads : parse AggregationSpec.read text = .ok ⟨groupBy, title, before ++ output :: after⟩)
      (key : groupBy = "" ∨ IsPlainName groupBy)
      (plain : ∀ t, title = some t → IsPlainName t)
      (accepted : ∀ output' ∈ before, output'.IsKnown ∧ output'.IsOpen title)
      (word : output.accumulator = .ofName name) (unknown : name ∉ Accumulator.known) :
      RawRequest.MeetsUnknown resolver raw .aggregation (.unknownAccumulator name)

section
variable {resolver : Resolver} {raw : RawRequest} {e : CompileError}

/-- A strict compiler refuses a condition for an unknown name exactly if its operator is one. -/
theorem Condition.compile_reject_unknown_iff {c : Condition} :
    c.compile resolver .reject = .error e ∧ e.IsUnknownName ↔
      ∃ name, c.operator = .unknown name ∧ e = .unknownOperator name := by
  constructor
  · rintro ⟨h, unknown⟩
    rcases eq_of_compile_eq_error h with ⟨name, -, operator, rfl⟩ | ⟨fault, rfl⟩
    · exact ⟨name, operator, rfl⟩
    · cases unknown
  · rintro ⟨name, operator, rfl⟩
    exact ⟨compile_reject_of_unknown operator, .operator name⟩

/-- A strict compiler refuses an output for an unknown name exactly if its accumulator is one. -/
theorem GroupStage.add_reject_unknown_iff {stage : GroupStage} {output : AggregatorSpec} :
    stage.add .reject output = .error e ∧ e.IsUnknownName ↔
      ∃ name, output.accumulator = .unknown name ∧ e = .unknownAccumulator name := by
  by_cases known : output.IsKnown
  · rw [add_of_isKnown .reject known]
    constructor
    · rintro ⟨h, unknown⟩
      obtain ⟨fault, rfl⟩ := eq_of_push_eq_error h
      cases unknown
    · rintro ⟨name, h, -⟩
      exact absurd h (known name)
  · obtain ⟨name, hname⟩ := AggregatorSpec.not_isKnown_iff.1 known
    rw [add_reject_of_unknown hname, hname]
    constructor
    · rintro ⟨⟨⟩, -⟩
      exact ⟨name, rfl, rfl⟩
    · rintro ⟨_, ⟨⟩, rfl⟩
      exact ⟨rfl, .accumulator name⟩

/-- A part that is not read does not fail for an unknown name. -/
theorem not_isUnknownName_of_orUnreadable {part : Part} {read : Except ReadError α}
    (h : orUnreadable part read = .error e) : ¬ e.IsUnknownName := by
  obtain ⟨cause, -, rfl⟩ := orUnreadable_eq_error_iff.1 h
  rintro ⟨⟩

/-- A strict compiler fails at the filter for an unknown name exactly if it meets one there. -/
theorem Compiler.fails_filter_unknown_iff {options : CompilerOptions}
    (strict : options.unknown = .reject) :
    (⟨resolver, options⟩ : Compiler).Fails raw .filter e ∧ e.IsUnknownName ↔
      raw.MeetsUnknown resolver .filter e := by
  constructor
  · rintro ⟨⟨written, h⟩, unknown⟩
    simp only [strict] at h
    rcases bind_eq_error_iff.1 h with h | ⟨conditions, hread, h⟩
    · exact absurd unknown (not_isUnknownName_of_orUnreadable h)
    rcases compileConditions_eq_error_iff.1 h with
      ⟨-, rfl⟩ | ⟨before, c, after, rfl, accepted, hc⟩
    · cases unknown
    obtain ⟨name, operator, rfl⟩ := Condition.compile_reject_unknown_iff.1 ⟨hc, unknown⟩
    have reads := orUnreadable_eq_ok_iff.1 hread
    obtain ⟨word, hword⟩ : ∃ word, c.operator = .ofName word := by
      obtain ⟨_, items, -, -, hitems⟩ := readList_eq_ok_iff.1 (parse_eq_ok_iff.1 reads).1
      exact Items.forall_mem_of_readAll (fun _ _ => Condition.exists_name_of_read) hitems c
        (by simp)
    obtain ⟨new, rfl⟩ := Operator.ofName_eq_unknown_iff.1 (hword.symm.trans operator)
    exact .operator written reads accepted hword new
  · rintro (⟨written, reads, accepted, word, unknown⟩)
    have operator := word.trans (Operator.ofName_eq_unknown_iff.2 ⟨unknown, rfl⟩)
    refine ⟨.filter written ?_, .operator _⟩
    simp only [strict]
    refine bind_eq_error_iff.2 (.inr ⟨_, orUnreadable_eq_ok_iff.2 reads, ?_⟩)
    exact compileConditions_eq_error_iff.2
      (.inr ⟨_, _, _, rfl, accepted, Condition.compile_reject_of_unknown operator⟩)

/-- A strict compiler fails at the sort keys for an unknown name exactly if it meets one there. -/
theorem Compiler.fails_sort_unknown_iff {options : CompilerOptions}
    (strict : options.unknown = .reject) :
    (⟨resolver, options⟩ : Compiler).Fails raw .sort e ∧ e.IsUnknownName ↔
      raw.MeetsUnknown resolver .sort e := by
  constructor
  · rintro ⟨⟨⟩ | ⟨written, h⟩, unknown⟩
    simp only [strict] at h
    rcases bind_eq_error_iff.1 h with h | ⟨specs, hread, h⟩
    · exact absurd unknown (not_isUnknownName_of_orUnreadable h)
    obtain ⟨before, spec, after, rfl, accepted, new, rfl⟩ :=
      compileSortSpecs_reject_eq_error_iff.1 h
    exact .direction written (orUnreadable_eq_ok_iff.1 hread) accepted new
  · rintro (_ | ⟨written, reads, accepted, unknown⟩)
    refine ⟨.sort written ?_, .direction _⟩
    simp only [strict]
    refine bind_eq_error_iff.2 (.inr ⟨_, orUnreadable_eq_ok_iff.2 reads, ?_⟩)
    exact compileSortSpecs_reject_eq_error_iff.2 ⟨_, _, _, rfl, accepted, unknown, rfl⟩

/-- A strict compiler refuses a grouping for an unknown name exactly if the names of the grouping
pass and so do the outputs before one of an unknown accumulator. -/
theorem AggregationSpec.compile_reject_unknown_iff {spec : AggregationSpec} :
    spec.compile .reject = .error e ∧ e.IsUnknownName ↔
      spec.checkNames = .ok () ∧ ∃ before output after name,
        spec.aggregators = before ++ output :: after ∧
        (∀ output' ∈ before, output'.IsKnown ∧ output'.IsOpen spec.title) ∧
        output.accumulator = .unknown name ∧ e = .unknownAccumulator name := by
  rw [compile_eq]
  constructor
  · rintro ⟨h, unknown⟩
    rcases bind_eq_error_iff.1 h with h | ⟨⟨⟩, names, h⟩
    · obtain ⟨field, fault, rfl⟩ := eq_of_checkNames_eq_error h
      cases unknown
    · obtain ⟨before, output, after, stage, hsplit, hbefore, houtput⟩ := foldlM_eq_error_iff.1 h
      obtain ⟨name, hname, rfl⟩ := GroupStage.add_reject_unknown_iff.1 ⟨houtput, unknown⟩
      exact ⟨names, before, output, after, name, hsplit,
        GroupStage.exists_foldlM_add_reject_eq_ok_iff.1 ⟨stage, hbefore⟩, hname, rfl⟩
  · rintro ⟨names, before, output, after, name, hsplit, accepted, hname, rfl⟩
    obtain ⟨stage, hstage⟩ :
        ∃ stage, before.foldlM (GroupStage.add .reject) spec.bare = .ok stage :=
      GroupStage.exists_foldlM_add_reject_eq_ok_iff.2 accepted
    refine ⟨bind_eq_error_iff.2 (.inr ⟨(), names, ?_⟩), .accumulator name⟩
    exact foldlM_eq_error_iff.2 ⟨before, output, after, stage, hsplit, hstage,
      GroupStage.add_reject_of_unknown hname⟩

/-- The text of a grouping that is not blank fails as unreadable, or with the error of the grouping
that it reads as. -/
theorem compileAggregation_eq_error_iff {policy : UnknownPolicy} {text : String}
    (h : Text.isBlank text = false) :
    compileAggregation policy text = .error e ↔
      orUnreadable .aggregation (parse AggregationSpec.read text) = .error e ∨
        ∃ spec, parse AggregationSpec.read text = .ok spec ∧ spec.compile policy = .error e := by
  simp only [compileAggregation, h, Bool.false_eq_true, if_false, bind_eq_error_iff,
    orUnreadable_eq_ok_iff, pure, Except.pure, reduceCtorEq, and_false, exists_false, or_false]

/-- A strict compiler fails at the grouping for an unknown name exactly if it meets one there. -/
theorem Compiler.fails_aggregation_unknown_iff {options : CompilerOptions}
    (strict : options.unknown = .reject) :
    (⟨resolver, options⟩ : Compiler).Fails raw .aggregation e ∧ e.IsUnknownName ↔
      raw.MeetsUnknown resolver .aggregation e := by
  constructor
  · rintro ⟨⟨⟩ | ⟨⟩ | ⟨written, h⟩, unknown⟩
    simp only [strict] at h
    rcases (compileAggregation_eq_error_iff (isBlank_eq_false_iff.2 written.2)).1 h with
      h | ⟨spec, reads, refused⟩
    · exact absurd unknown (not_isUnknownName_of_orUnreadable h)
    obtain ⟨names, before, output, after, name, hsplit, accepted, hname, rfl⟩ :=
      AggregationSpec.compile_reject_unknown_iff.1 ⟨refused, unknown⟩
    obtain ⟨groupBy, title, outputs⟩ := spec
    cases hsplit
    obtain ⟨word, hword⟩ := AggregationSpec.exists_name_of_read (parse_eq_ok_iff.1 reads).1 output
      (by simp)
    obtain ⟨new, rfl⟩ := Accumulator.ofName_eq_unknown_iff.1 (hword.symm.trans hname)
    obtain ⟨key, plain⟩ := AggregationSpec.checkNames_eq_ok_iff.1 names
    exact .accumulator written reads key plain accepted hword new
  · intro meets
    cases meets with
    | @accumulator text name groupBy title before after output written reads key plain accepted word
        new =>
      have names : (⟨groupBy, title, before ++ output :: after⟩ : AggregationSpec).checkNames =
          .ok () := AggregationSpec.checkNames_eq_ok_iff.2 ⟨key, plain⟩
      have hname := word.trans (Accumulator.ofName_eq_unknown_iff.2 ⟨new, rfl⟩)
      have refused := AggregationSpec.compile_reject_unknown_iff.2
        ⟨names, before, output, after, name, rfl, accepted, hname, rfl⟩
      refine ⟨.aggregation written ?_, refused.2⟩
      simp only [strict]
      exact (compileAggregation_eq_error_iff (isBlank_eq_false_iff.2 written.2)).2
        (.inr ⟨_, reads, refused.1⟩)

/-- A strict compiler fails at a part for an unknown name exactly if it meets one there. -/
theorem Compiler.fails_unknown_iff {options : CompilerOptions} (strict : options.unknown = .reject)
    {part : Part} :
    (⟨resolver, options⟩ : Compiler).Fails raw part e ∧ e.IsUnknownName ↔
      raw.MeetsUnknown resolver part e := by
  cases part with
  | filter => exact fails_filter_unknown_iff strict
  | sort => exact fails_sort_unknown_iff strict
  | aggregation => exact fails_aggregation_unknown_iff strict
  | projection =>
    constructor
    · rintro ⟨⟨⟩, -⟩
    · rintro ⟨⟩

end

/-! ## Requests -/

/-- A strict compiler only turns names that a lenient one passes over into errors. Where it
succeeds, the lenient one comes to the same pipeline; where it fails for another reason than an
unknown name, the lenient one fails with the same error; and it fails for an unknown name exactly if
it meets one in a part before which none fails, and with the error that carries this name. -/
theorem compileRequest_strict (resolver : Resolver) (size : Int64) (base : Document)
    (raw : RawRequest) :
    let strict : Compiler := ⟨resolver, ⟨.reject, size⟩⟩
    let lenient : Compiler := ⟨resolver, ⟨.ignore, size⟩⟩
    (∀ pipeline, strict.compileRequest base raw = .ok pipeline →
      lenient.compileRequest base raw = .ok pipeline) ∧
    (∀ e, strict.compileRequest base raw = .error e → ¬ e.IsUnknownName →
      lenient.compileRequest base raw = .error e) ∧
    ∀ e, strict.compileRequest base raw = .error e ∧ e.IsUnknownName ↔
      ∃ part, strict.Clear raw part ∧ raw.MeetsUnknown resolver part e := by
  intro strict lenient
  have tightens : Tightens (strict.compileRequest base raw) (lenient.compileRequest base raw) :=
    Compiler.compileRequest_tightens resolver size base raw
  refine ⟨fun pipeline h => ?_, fun e h other => ?_, fun e => ?_⟩
  · rcases tightens with same | ⟨e, failed, -⟩
    · exact same.symm.trans h
    · cases h.symm.trans failed
  · rcases tightens with same | ⟨e', failed, unknown⟩
    · exact same.symm.trans h
    · cases h.symm.trans failed
      exact absurd unknown other
  · have fails_iff (part : Part) : strict.Fails raw part e ∧ e.IsUnknownName ↔
        raw.MeetsUnknown resolver part e := Compiler.fails_unknown_iff rfl
    rw [Compiler.compileRequest_eq_error_iff]
    simp only [← fails_iff, ← exists_and_right, and_assoc]

/-- A sort key of a known direction, a label that is not plain before an unknown operator, and a
missing operator under such a label before sort keys that cannot be read. -/
theorem compileRequest_strict_known_invalid_unknown :
    let strict : Compiler := ⟨.noop, ⟨.reject, 10⟩⟩
    let lenient : Compiler := ⟨.noop, ⟨.ignore, 10⟩⟩
    let known : RawRequest :=
      ⟨none, some "[\x7b\"db_name\":\"a\",\"type\":\"des\"\x7d]", none, none, none, none⟩
    let sorted : CompiledPipeline :=
      ⟨[.matching [], .sort [("a", .int32 (-1))], .skip 0, .limit 10], []⟩
    let invalid : RawRequest :=
      ⟨some "[[\"$a\",\"=\"],[\"b\",\"like\"]]", none, none, none, none, none⟩
    let unknown : RawRequest :=
      ⟨some "[\x7b\"label\":\"$where\"\x7d]", some "?", none, none, none, none⟩
    lenient.compileRequest [] known = .ok sorted ∧
      lenient.compileRequest [] invalid = .error (.invalidCondition "$a" "=" (.label .dollar)) ∧
      strict.compileRequest [] unknown = .error (.unknownOperator "") ∧
      lenient.compileRequest [] unknown = .error (.unreadable .sort (.fault .malformed)) := by
  intro strict lenient known sorted invalid unknown
  have hknown : strict.compileRequest [] known = .ok sorted := by cbv
  have hinvalid : strict.compileRequest [] invalid =
      .error (.invalidCondition "$a" "=" (.label .dollar)) := by cbv
  have reads : parse (readList Condition.read) "[\x7b\"label\":\"$where\"\x7d]" =
      .ok ([] ++ ⟨"$where", .ofName "", .null⟩ :: []) := by cbv
  have written : Written unknown.filter "[\x7b\"label\":\"$where\"\x7d]" :=
    ⟨rfl, '[', by decide, by decide⟩
  have meets : unknown.MeetsUnknown .noop .filter (.unknownOperator "") :=
    .operator written reads (fun _ h => absurd h List.not_mem_nil) rfl (by decide)
  have hlenient : lenient.compileRequest [] unknown =
      .error (.unreadable .sort (.fault .malformed)) := by cbv
  have clear : strict.Clear unknown .filter := fun _ h => absurd h List.not_mem_nil
  exact ⟨(compileRequest_strict .noop 10 [] known).1 _ hknown,
    (compileRequest_strict .noop 10 [] invalid).2.1 _ hinvalid (by rintro ⟨⟩),
    (((compileRequest_strict .noop 10 [] unknown).2.2 _).2 ⟨.filter, clear, meets⟩).1, hlenient⟩

end QueryPipeline
