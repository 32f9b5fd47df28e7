import QueryPipeline.Proofs.Keyed
import QueryPipeline.Proofs.Outcome
import QueryPipeline.Proofs.Unknown.Names

/-!
# What a client's sort keys come to

A key of a client is an update of the stage (`SortSpec.update?`), or there is something wrong with
its direction (`SortSpec.violation?`). A list of keys makes the stage of those with a known direction
unless there is something wrong with one of them (`compileSortSpecs_eq_unlessFault`), which a lenient
compiler never finds (`compileSortSpecs_eq_ok`) and a strict one at the first key of an unknown
direction (`compileSortSpecs_reject_eq_error_iff`).
-/

namespace QueryPipeline

/-! ## Updates of a stage -/

namespace SortStage

/-- The stage after keys are pushed from left to right. -/
def pushAll (stage : SortStage) (updates : List (String × SortDirection)) : SortStage :=
  updates.foldl (fun stage key => stage.push key.1 key.2) stage

/-- Keys are pushed as they are put into a keyed list. -/
theorem keys_pushAll (stage : SortStage) (updates : List (String × SortDirection)) :
    (stage.pushAll updates).keys = stage.keys.putAll updates := by
  induction updates generalizing stage with
  | nil => rfl
  | cons update rest ih => exact ih (stage.push update.1 update.2)

/-- The keys of a stage that is collected are the keyed list of the updates. -/
theorem keys_ofKeys (keys : List (String × SortDirection)) :
    (ofKeys keys).keys = Keyed.ofUpdates keys :=
  keys_pushAll empty keys

end SortStage

/-! ## A client's keys -/

namespace SortSpec

/-- The update that a client's key asks for; a key of an unknown direction asks for none. -/
def update? (spec : SortSpec) : Option (String × SortDirection) :=
  (SortDirection.ofName? spec.direction).map (spec.field, ·)

/-- What is wrong with a client's key: a strict compiler does not know its direction. -/
def violation? (policy : UnknownPolicy) (spec : SortSpec) : Option CompileError :=
  if policy = .reject ∧ spec.direction ∉ SortDirection.known then
    some (.unknownDirection spec.direction)
  else none

variable {policy : UnknownPolicy} {spec : SortSpec}

/-- Something is wrong with a key exactly if a strict compiler reads it and does not know its
direction. -/
theorem violation?_eq_some_iff {e : CompileError} :
    spec.violation? policy = some e ↔ policy = .reject ∧ spec.direction ∉ SortDirection.known ∧
      .unknownDirection spec.direction = e := by
  simp only [violation?, Option.ite_none_right_eq_some, Option.some.injEq, and_assoc]

/-- Nothing is wrong with a key exactly if a strict compiler would know its direction. -/
theorem violation?_eq_none_iff :
    spec.violation? policy = none ↔ (policy = .reject → spec.direction ∈ SortDirection.known) := by
  simp only [violation?, ite_eq_right_iff, reduceCtorEq, imp_false, not_and, not_not]

end SortSpec

/-- A client's key is added unless something is wrong with it. -/
theorem SortStage.add_eq_unlessFault (policy : UnknownPolicy) (stage : SortStage)
    (spec : SortSpec) :
    stage.add policy spec =
      unlessFault (spec.violation? policy) (stage.pushAll spec.update?.toList) := by
  unfold add SortSpec.violation? SortSpec.update?
  cases hdirection : SortDirection.ofName? spec.direction with
  | some direction =>
    have known : spec.direction ∈ SortDirection.known := by
      by_contra unknown
      rw [SortDirection.ofName?_eq_none_iff.2 unknown] at hdirection
      cases hdirection
    simp [known, pushAll]
  | none =>
    have unknown := SortDirection.ofName?_eq_none_iff.1 hdirection
    cases policy with
    | reject => simp [unknown, unlessFault]
    | ignore => simp [pushAll]

/-- A client's keys make the stage of those whose direction is known, unless something is wrong with
one of them. -/
theorem compileSortSpecs_eq_unlessFault (policy : UnknownPolicy) (specs : List SortSpec) :
    compileSortSpecs policy specs =
      unlessFault (specs.filterMap (·.violation? policy)).head?
        (SortStage.ofKeys (specs.filterMap SortSpec.update?)) := by
  have run (stage : SortStage) :
      specs.foldl (fun stage spec => stage.pushAll spec.update?.toList) stage =
        stage.pushAll (specs.filterMap SortSpec.update?) := by
    induction specs generalizing stage with
    | nil => rfl
    | cons spec rest ih =>
      rw [List.foldl_cons, ih]
      cases h : spec.update? with
      | none => rw [List.filterMap_cons_none h]; rfl
      | some update => rw [List.filterMap_cons_some h]; rfl
  rw [compileSortSpecs, foldlM_eq_unlessFault (P := fun _ => True) (fun _ _ _ => trivial)
    (fun stage spec _ => stage.add_eq_unlessFault policy spec) trivial, run]
  rfl

/-- Keys are refused for what is wrong with the first of them with which something is wrong. -/
theorem compileSortSpecs_eq_error_iff {policy : UnknownPolicy} {specs : List SortSpec}
    {e : CompileError} :
    compileSortSpecs policy specs = .error e ↔ ∃ before spec after, specs = before ++ spec :: after ∧
      spec.violation? policy = some e ∧ ∀ earlier ∈ before, earlier.violation? policy = none := by
  rw [compileSortSpecs_eq_unlessFault, unlessFault_eq_error_iff, List.head?_filterMap,
    List.findSome?_eq_some_iff]

/-- A strict compiler refuses keys for the first whose direction is unknown. -/
theorem compileSortSpecs_reject_eq_error_iff {specs : List SortSpec} {e : CompileError} :
    compileSortSpecs .reject specs = .error e ↔
      ∃ before spec after, specs = before ++ spec :: after ∧
        (∀ earlier ∈ before, earlier.direction ∈ SortDirection.known) ∧
        spec.direction ∉ SortDirection.known ∧ .unknownDirection spec.direction = e := by
  simp only [compileSortSpecs_eq_error_iff, SortSpec.violation?_eq_some_iff,
    SortSpec.violation?_eq_none_iff, true_and, forall_const]
  refine exists_congr fun before => exists_congr fun spec => exists_congr fun after => ?_
  rw [and_comm (a := _ ∧ _)]

/-- Keys of which none is at fault make the stage of those whose direction is known. -/
theorem compileSortSpecs_eq_ok {policy : UnknownPolicy} {specs : List SortSpec}
    (accepted : policy = .reject → ∀ spec ∈ specs, spec.direction ∈ SortDirection.known) :
    compileSortSpecs policy specs = .ok (.ofKeys (specs.filterMap SortSpec.update?)) := by
  have none (spec : SortSpec) (mem : spec ∈ specs) : spec.violation? policy = none :=
    SortSpec.violation?_eq_none_iff.2 fun strict => accepted strict spec mem
  rw [compileSortSpecs_eq_unlessFault, List.filterMap_eq_nil_iff.2 none]
  rfl

end QueryPipeline
