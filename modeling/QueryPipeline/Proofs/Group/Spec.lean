import QueryPipeline.Proofs.Group.Reserved

/-!
# Groupings as a client writes them

A grouping is compiled in two steps (`AggregationSpec.compile_eq`): the names of the key and of the
title are checked, then the outputs are added in order. An output is added to a stage exactly if its
name is open (`AggregatorSpec.IsOpen`), which depends on the stage through its title alone, and no
output changes the title. So a strict compiler adds a list of outputs exactly if each of them is
known and open (`GroupStage.exists_foldlM_add_reject_eq_ok_iff`).
-/

namespace QueryPipeline

/-! ## The names of the grouping itself -/

/-- A field is checked for being a plain name. -/
theorem checkGroupField_eq_ok_iff {field : String} :
    checkGroupField field = .ok () ↔ IsPlainName field := by
  unfold checkGroupField IsPlainName
  cases nameFault? field <;> simp [invalidGroupField]

/-- A field that is no plain name is refused as a field of the grouping. -/
theorem eq_of_checkGroupField_eq_error {field : String} {e : CompileError}
    (h : checkGroupField field = .error e) :
    ∃ fault, e = .invalidField .aggregation field fault := by
  unfold checkGroupField at h
  split at h
  · next fault _ =>
    cases h
    exact ⟨_, rfl⟩
  · cases h

namespace AggregationSpec

/-- The check of the names that a grouping refers to itself: the key, unless it is empty, and the
title. -/
def checkNames (spec : AggregationSpec) : Except CompileError Unit := do
  if spec.groupBy ≠ "" then checkGroupField spec.groupBy
  spec.title.forM checkGroupField

/-- The stage of a grouping before any output is added. -/
def bare (spec : AggregationSpec) : GroupStage :=
  ⟨spec.groupBy, spec.title, []⟩

/-- A grouping is compiled by a check of its own names and the addition of its outputs. -/
theorem compile_eq (policy : UnknownPolicy) (spec : AggregationSpec) :
    spec.compile policy = (do
      spec.checkNames
      spec.aggregators.foldlM (GroupStage.add policy) spec.bare) := by
  unfold compile checkNames bare
  by_cases h : spec.groupBy = ""
  · simp [h]
  · simp [h]

/-- The names of a grouping pass exactly if the key is empty or plain and the title is plain. -/
theorem checkNames_eq_ok_iff {spec : AggregationSpec} :
    spec.checkNames = .ok () ↔ (spec.groupBy = "" ∨ IsPlainName spec.groupBy) ∧
      ∀ title, spec.title = some title → IsPlainName title := by
  have htitle : forM spec.title checkGroupField = .ok () ↔
      ∀ title, spec.title = some title → IsPlainName title := by
    cases spec.title with
    | none => simp [pure_eq_ok_iff]
    | some title => simp [checkGroupField_eq_ok_iff]
  unfold checkNames
  by_cases h : spec.groupBy = ""
  · simp only [h, ne_eq, not_true_eq_false, if_false, Option.forM_eq_forM, true_or, true_and]
    exact htitle
  · simp only [h, ne_eq, not_false_eq_true, if_true, Option.forM_eq_forM, bind_eq_ok_iff, false_or]
    constructor
    · rintro ⟨⟨⟩, hkey, ht⟩
      exact ⟨checkGroupField_eq_ok_iff.1 hkey, htitle.1 ht⟩
    · rintro ⟨hkey, ht⟩
      exact ⟨(), checkGroupField_eq_ok_iff.2 hkey, htitle.2 ht⟩

/-- The names of a grouping are refused as a field of the grouping. -/
theorem eq_of_checkNames_eq_error {spec : AggregationSpec} {e : CompileError}
    (h : spec.checkNames = .error e) :
    ∃ field fault, e = .invalidField .aggregation field fault := by
  have title_refused (h : forM spec.title checkGroupField = .error e) :
      ∃ field fault, e = .invalidField .aggregation field fault := by
    cases htitle : spec.title with
    | none =>
      rw [htitle] at h
      cases h
    | some title =>
      rw [htitle] at h
      exact ⟨_, eq_of_checkGroupField_eq_error h⟩
  unfold checkNames at h
  by_cases hkey : spec.groupBy = ""
  · exact title_refused (by simpa [hkey] using h)
  · simp only [hkey, ne_eq, not_false_eq_true, if_true, bind_eq_error_iff] at h
    rcases h with h | ⟨_, -, h⟩
    · exact ⟨_, eq_of_checkGroupField_eq_error h⟩
    · exact title_refused h

end AggregationSpec

/-! ## Outputs -/

namespace AggregatorSpec

/-- An output whose accumulator is known. -/
def IsKnown (output : AggregatorSpec) : Prop :=
  ∀ name, output.accumulator ≠ .unknown name

/-- An output is not known exactly if its accumulator is an unknown one. -/
theorem not_isKnown_iff {output : AggregatorSpec} :
    ¬ output.IsKnown ↔ ∃ name, output.accumulator = .unknown name := by
  simp [IsKnown]

/-- An output whose name is plain and none that the stage writes itself. -/
structure IsOpen (title : Option String) (output : AggregatorSpec) : Prop where
  plain : IsPlainName output.field
  not_key : output.field ≠ "_id"
  not_title : title ≠ none → output.field ≠ "group_by_title"

end AggregatorSpec

namespace GroupStage

variable {stage next : GroupStage} {output : AggregatorSpec}

/-- A push goes through exactly if the name of the output is open. -/
theorem exists_push_eq_ok_iff {accumulator : Accumulator} :
    (∃ next, stage.push output.field accumulator = .ok next) ↔ output.IsOpen stage.title := by
  have hfree : stage.isReserved output.field = false ↔
      output.field ≠ "_id" ∧ (stage.title ≠ none → output.field ≠ "group_by_title") := by
    unfold isReserved groupKeyField groupTitleField
    cases stage.title with
    | none | some title => simp
  simp only [push_eq_ok_iff, exists_and_left, exists_eq', and_true, hfree]
  constructor
  · rintro ⟨plain, not_key, not_title⟩
    exact ⟨plain, not_key, not_title⟩
  · rintro ⟨plain, not_key, not_title⟩
    exact ⟨plain, not_key, not_title⟩

/-- A push is refused for the name of the output. -/
theorem eq_of_push_eq_error {field : String} {accumulator : Accumulator} {e : CompileError}
    (h : stage.push field accumulator = .error e) :
    ∃ fault, e = .invalidField .aggregation field fault := by
  rcases bind_eq_error_iff.1 h with h | ⟨_, -, h⟩
  · exact eq_of_checkGroupField_eq_error h
  · split at h
    · cases h
      exact ⟨_, rfl⟩
    · cases h

/-- A known output is pushed under either policy. -/
theorem add_of_isKnown (policy : UnknownPolicy) (known : output.IsKnown) :
    stage.add policy output = stage.push output.field output.accumulator := by
  unfold add
  split
  · next name h => exact absurd h (known name)
  · rfl

/-- A strict compiler refuses an output with an unknown accumulator. -/
theorem add_reject_of_unknown {name : String} (h : output.accumulator = .unknown name) :
    stage.add .reject output = .error (.unknownAccumulator name) := by
  simp [add, h]

/-- A lenient compiler drops an output with an unknown accumulator. -/
theorem add_ignore_of_unknown {name : String} (h : output.accumulator = .unknown name) :
    stage.add .ignore output = .ok stage := by
  simp [add, h]

/-- An output that is added leaves the title. -/
theorem title_of_add {policy : UnknownPolicy} (h : stage.add policy output = .ok next) :
    next.title = stage.title := by
  by_cases known : output.IsKnown
  · rw [add_of_isKnown policy known] at h
    obtain ⟨-, -, rfl⟩ := push_eq_ok_iff.1 h
    rfl
  · obtain ⟨name, hname⟩ := AggregatorSpec.not_isKnown_iff.1 known
    cases policy with
    | reject =>
      rw [add_reject_of_unknown hname] at h
      cases h
    | ignore =>
      rw [add_ignore_of_unknown hname] at h
      cases h
      rfl

/-- A strict compiler adds an output exactly if it is known and open. -/
theorem exists_add_reject_eq_ok_iff :
    (∃ next, stage.add .reject output = .ok next) ↔
      output.IsKnown ∧ output.IsOpen stage.title := by
  by_cases known : output.IsKnown
  · rw [add_of_isKnown _ known, exists_push_eq_ok_iff]
    exact (and_iff_right known).symm
  · obtain ⟨name, hname⟩ := AggregatorSpec.not_isKnown_iff.1 known
    simp [add_reject_of_unknown hname, known]

/-- A strict compiler adds a list of outputs exactly if each is known and open. -/
theorem exists_foldlM_add_reject_eq_ok_iff {outputs : List AggregatorSpec} :
    (∃ next, outputs.foldlM (GroupStage.add .reject) stage = .ok next) ↔
      ∀ output ∈ outputs, output.IsKnown ∧ output.IsOpen stage.title := by
  refine exists_foldlM_eq_ok_iff (P := fun s => s.title = stage.title) ?_ ?_ rfl
  · intro s output s' same h
    rw [title_of_add h, same]
  · intro s output same
    rw [exists_add_reject_eq_ok_iff, same]

end GroupStage

end QueryPipeline
