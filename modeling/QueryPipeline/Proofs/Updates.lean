import Mathlib
import QueryPipeline.Projection
import QueryPipeline.Proofs.Sort

/-!
# Stages that updates build

Sort keys and projected fields are updates that come one by one or as a list, from a caller or from
a client's text. `SortStage.Built` and `Projection.Built` say which updates a stage was built of,
whichever way each of them came.

In all of them an update is a `Keyed.put`, so a stage is the keyed list of its updates, and so is its
document. `stages_summarize_updates` says what this means for the order, the values, a second run
and a rebuilt stage.
-/

namespace QueryPipeline

open Json

/-! ## Projected fields -/

namespace Projection

/-- Includes or excludes a field. -/
def change (projection : Projection) (update : String × Bool) : Projection :=
  if update.2 then projection.including update.1 else projection.excluding update.1

/-- The projection after fields are included and excluded from left to right. -/
def changeAll (projection : Projection) (updates : List (String × Bool)) : Projection :=
  updates.foldl change projection

/-- A field is included or excluded as its flag is put into a keyed list. -/
theorem fields_change (projection : Projection) (update : String × Bool) :
    (projection.change update).fields = projection.fields.put update.1 update.2 := by
  obtain ⟨field, included⟩ := update
  cases included <;> rfl

/-- Fields are included and excluded as their flags are put into a keyed list. -/
theorem fields_changeAll (projection : Projection) (updates : List (String × Bool)) :
    (projection.changeAll updates).fields = projection.fields.putAll updates := by
  induction updates generalizing projection with
  | nil => rfl
  | cons update rest ih => exact (ih _).trans (by rw [fields_change, Keyed.putAll_cons])

/-- A list of names makes a projection that includes each of them. -/
theorem fields_ofNames (names : List String) :
    (ofNames names).fields = Keyed.ofUpdates (names.map (·, true)) := by
  have changes : ofNames names = empty.changeAll (names.map (·, true)) := by
    rw [changeAll, List.foldl_map]
    rfl
  rw [changes, fields_changeAll]
  rfl

/-- An entry is added exactly if it has a flag and a plain name. -/
theorem addFlag_eq_ok_iff {projection added : Projection} {entry : String × Value} :
    projection.addFlag entry = .ok added ↔
      ∃ included, flag? entry.2 = some included ∧ IsPlainName entry.1 ∧
        projection.set entry.1 included = added := by
  unfold addFlag
  cases flag? entry.2 with
  | none => simp [invalidField]
  | some included =>
    by_cases plain : IsPlainName entry.1
    · simp [plain]
    · simp [plain, invalidField]

/-- An entry of a document and its name with its flag. -/
def Flags (entry : String × Value) (update : String × Bool) : Prop :=
  entry.1 = update.1 ∧ flag? entry.2 = some update.2

/-- A document of flags puts its names with their flags into a projection. -/
theorem fields_of_foldlM_addFlag {flags : Document} {updates : List (String × Bool)}
    {start projection : Projection} (h : List.Forall₂ Flags flags updates)
    (made : flags.foldlM addFlag start = .ok projection) :
    projection.fields = start.fields.putAll updates := by
  induction h generalizing start with
  | nil =>
    rw [← pure_eq_ok_iff.1 made]
    rfl
  | cons hentry _ ih =>
    rw [List.foldlM_cons, bind_eq_ok_iff] at made
    obtain ⟨next, hadd, made⟩ := made
    obtain ⟨included, hflag, -, rfl⟩ := addFlag_eq_ok_iff.1 hadd
    obtain ⟨hname, hflag'⟩ := hentry
    cases hflag.symm.trans hflag'
    rw [ih made, Keyed.putAll_cons, ← hname]
    rfl

end Projection

/-! ## The ways to build a stage -/

/-- A sort stage and the updates that it was built of: keys that were collected or compiled, and
then keys that were pushed. -/
inductive SortStage.Built : List (String × SortDirection) → SortStage → Prop
  | empty : Built [] .empty
  | collected (keys : List (String × SortDirection)) : Built keys (.ofKeys keys)
  | compiled {policy : UnknownPolicy} {specs : List SortSpec} {stage : SortStage}
      (h : compileSortSpecs policy specs = .ok stage) :
      Built (specs.filterMap SortSpec.update?) stage
  | pushed {updates : List (String × SortDirection)} {stage : SortStage}
      (before : Built updates stage) (field : String) (direction : SortDirection) :
      Built (updates ++ [(field, direction)]) (stage.push field direction)

/-- A projection and the updates that it was built of: names that were collected or a document of
flags, and then fields that were included or excluded. -/
inductive Projection.Built : List (String × Bool) → Projection → Prop
  | empty : Built [] .empty
  | collected (names : List String) : Built (names.map (·, true)) (.ofNames names)
  | flagged {flags : Document} {updates : List (String × Bool)} {projection : Projection}
      (h : List.Forall₂ Flags flags updates) (made : ofFlags flags = .ok projection) :
      Built updates projection
  | included {updates : List (String × Bool)} {projection : Projection}
      (before : Built updates projection) (field : String) :
      Built (updates ++ [(field, true)]) (projection.including field)
  | excluded {updates : List (String × Bool)} {projection : Projection}
      (before : Built updates projection) (field : String) :
      Built (updates ++ [(field, false)]) (projection.excluding field)

/-- Every way to build a sort stage comes to the keyed list of the updates. -/
theorem SortStage.Built.keys_eq {updates : List (String × SortDirection)} {stage : SortStage}
    (h : SortStage.Built updates stage) : stage.keys = Keyed.ofUpdates updates := by
  induction h with
  | empty => rfl
  | collected keys => exact keys_ofKeys keys
  | compiled h =>
    rw [compileSortSpecs_eq_unlessFault, unlessFault_eq_ok_iff] at h
    rw [← h.2, keys_ofKeys]
  | pushed _ field direction ih =>
    rw [Keyed.ofUpdates, Keyed.putAll_append, ← Keyed.ofUpdates, ← ih]
    rfl

/-- Every way to build a projection comes to the keyed list of the updates. -/
theorem Projection.Built.fields_eq {updates : List (String × Bool)} {projection : Projection}
    (h : Projection.Built updates projection) : projection.fields = Keyed.ofUpdates updates := by
  induction h with
  | empty => rfl
  | collected names => exact fields_ofNames names
  | flagged h made => exact fields_of_foldlM_addFlag h made
  | included _ field ih | excluded _ field ih =>
    rw [Keyed.ofUpdates, Keyed.putAll_append, ← Keyed.ofUpdates, ← ih]
    rfl

/-- Every list of updates builds a projection. -/
theorem Projection.built_changeAll (updates : List (String × Bool)) :
    Projection.Built updates (empty.changeAll updates) := by
  induction updates using List.reverseRecOn with
  | nil => exact .empty
  | append_singleton before update ih =>
    obtain ⟨field, included⟩ := update
    rw [changeAll, List.foldl_append]
    cases included with
    | true => exact .included ih field
    | false => exact .excluded ih field

/-! ## What a stage says of its updates -/

/-- The document of a sort stage is built of the updates as the stage is. -/
theorem SortStage.Built.toDocument_eq {updates : List (String × SortDirection)} {stage : SortStage}
    (h : SortStage.Built updates stage) :
    stage.toDocument = Keyed.ofUpdates (updates.map fun key =>
      (key.1, .int32 (if key.2 = .ascending then 1 else -1))) := by
  have hindicator (direction : SortDirection) :
      direction.indicator = if direction = .ascending then 1 else -1 := by
    cases direction <;> rfl
  rw [toDocument, h.keys_eq,
    Keyed.map_ofUpdates (fun direction : SortDirection => Value.int32 direction.indicator),
    Keyed.ofUpdates_ofUpdates]
  simp only [hindicator]

/-- The document of a projection is built of the updates as the projection is. -/
theorem Projection.Built.toDocument_eq {updates : List (String × Bool)} {projection : Projection}
    (h : Projection.Built updates projection) :
    projection.toDocument = Keyed.ofUpdates (updates.map fun field =>
      (field.1, .int32 (if field.2 then 1 else 0))) := by
  rw [toDocument, h.fields_eq,
    Keyed.map_ofUpdates (fun included : Bool => Value.int32 (flagNumber included)),
    Keyed.ofUpdates_ofUpdates]
  rfl

/-- A sort stage and a projection are what is left of the updates that they were built of: each
field once, in the order in which the fields were first given, with what it was given last. The
document has the same fields in the same order and is built of the updates itself; the updates
change nothing a second time; and what the stage holds builds it again. A client's sort keys, read
from any text, are such updates: a lenient compiler takes those with a known direction, a strict one
comes to the same stage if there are no others, and else fails for the first of these. -/
theorem stages_summarize_updates :
    (∀ updates, SortStage.Built updates (SortStage.empty.pushAll updates)) ∧
    (∀ updates stage, SortStage.Built updates stage →
      stage.keys.Summarizes updates ∧
      Keyed.keys stage.toDocument = stage.keys.keys ∧
      stage.toDocument = Keyed.ofUpdates (updates.map fun key =>
        (key.1, .int32 (if key.2 = .ascending then 1 else -1))) ∧
      stage.pushAll updates = stage ∧
      SortStage.ofKeys stage.keys = stage) ∧
    (∀ updates, Projection.Built updates (Projection.empty.changeAll updates)) ∧
    (∀ updates projection, Projection.Built updates projection →
      projection.fields.Summarizes updates ∧
      Keyed.keys projection.toDocument = projection.fields.keys ∧
      projection.toDocument = Keyed.ofUpdates (updates.map fun field =>
        (field.1, .int32 (if field.2 then 1 else 0))) ∧
      projection.changeAll updates = projection ∧
      Projection.empty.changeAll projection.fields = projection) ∧
    ∀ text specs, parse (readList SortSpec.read) text = .ok specs →
      ∃ stage, compileSort .ignore text = .ok stage ∧
        SortStage.Built (specs.filterMap SortSpec.update?) stage ∧
        ((∀ spec ∈ specs, spec.direction ∈ SortDirection.known) →
          compileSort .reject text = .ok stage) ∧
        ∀ before spec after, specs = before ++ spec :: after →
          (∀ earlier ∈ before, earlier.direction ∈ SortDirection.known) →
          spec.direction ∉ SortDirection.known →
          compileSort .reject text = .error (.unknownDirection spec.direction) := by
  refine ⟨SortStage.Built.collected, fun updates stage h => ?_, Projection.built_changeAll,
    fun updates projection h => ?_, fun text specs read => ?_⟩
  · have hkeys := h.keys_eq
    refine ⟨Keyed.summarizes_iff.2 hkeys, ?_, h.toDocument_eq, ?_, ?_⟩
    · rw [h.toDocument_eq, hkeys]
      exact Keyed.keys_ofUpdates_map
        (fun direction => Value.int32 (if direction = .ascending then 1 else -1)) updates
    · rw [SortStage.mk.injEq, SortStage.keys_pushAll, hkeys, Keyed.putAll_ofUpdates_self]
    · rw [SortStage.mk.injEq, SortStage.keys_ofKeys, hkeys, Keyed.ofUpdates_ofUpdates]
  · have hfields := h.fields_eq
    refine ⟨Keyed.summarizes_iff.2 hfields, ?_, h.toDocument_eq, ?_, ?_⟩
    · rw [h.toDocument_eq, hfields]
      exact Keyed.keys_ofUpdates_map (fun included => Value.int32 (if included then 1 else 0)) updates
    · rw [Projection.mk.injEq, Projection.fields_changeAll, hfields, Keyed.putAll_ofUpdates_self]
    · rw [Projection.mk.injEq, Projection.fields_changeAll, hfields]
      exact Keyed.ofUpdates_ofUpdates updates
  · have compiles (policy : UnknownPolicy) : compileSort policy text = compileSortSpecs policy specs := by
      rw [compileSort, read]
      rfl
    have lenient : compileSortSpecs .ignore specs =
        .ok (.ofKeys (specs.filterMap SortSpec.update?)) := compileSortSpecs_eq_ok nofun
    refine ⟨_, (compiles .ignore).trans lenient, .compiled lenient, fun accepted => ?_, ?_⟩
    · exact (compiles .reject).trans (compileSortSpecs_eq_ok fun _ => accepted)
    · rintro before spec after rfl accepted unknown
      exact (compiles .reject).trans (compileSortSpecs_reject_eq_error_iff.2
        ⟨before, spec, after, rfl, accepted, unknown, rfl⟩)

/-- Sort keys given up to three times, a flag that is taken back, and a text whose second direction
and third one are unknown. -/
theorem stages_summarize_updates_repeated :
    let keys : List (String × SortDirection) := [("a", .ascending), ("b", .ascending),
      ("a", .descending), ("b", .descending), ("a", .ascending)]
    let stage : SortStage := ⟨[("a", .ascending), ("b", .descending)]⟩
    let fields := [("x", true), ("y", false), ("x", false)]
    let projection : Projection := ⟨[("x", false), ("y", false)]⟩
    let specs : List SortSpec := [⟨"a", "asc"⟩, ⟨"b", "up"⟩, ⟨"a", ""⟩]
    let text := "[[\"a\",\"asc\"],[\"b\",\"up\"],[\"a\"]]"
    (SortStage.Built keys stage ∧ stage.pushAll keys = stage) ∧
      (Projection.Built fields projection ∧ projection.fields.Summarizes fields) ∧
      parse (readList SortSpec.read) text = .ok specs ∧
      compileSort .reject text = .error (.unknownDirection "up") := by
  intro keys stage fields projection specs text
  have hstage : SortStage.Built keys stage := .collected keys
  have hflags : List.Forall₂ Projection.Flags [("x", .int32 1), ("y", .boolean false)]
      [("x", true), ("y", false)] := .cons ⟨rfl, rfl⟩ (.cons ⟨rfl, rfl⟩ .nil)
  have hflagged : Projection.Built [("x", true), ("y", false)] ⟨[("x", true), ("y", false)]⟩ :=
    .flagged hflags rfl
  have hprojection : Projection.Built fields projection := .excluded hflagged "x"
  obtain ⟨-, sorts, -, projects, compiles⟩ := stages_summarize_updates
  have hread : parse (readList SortSpec.read) text = .ok specs := by cbv
  obtain ⟨-, -, -, -, refused⟩ := compiles text specs hread
  have first : ∀ earlier ∈ [(⟨"a", "asc"⟩ : SortSpec)], earlier.direction ∈ SortDirection.known := by
    decide
  exact ⟨⟨hstage, (sorts keys stage hstage).2.2.2.1⟩,
    ⟨hprojection, (projects fields projection hprojection).1⟩, hread,
    refused [⟨"a", "asc"⟩] ⟨"b", "up"⟩ _ rfl first (by decide)⟩

end QueryPipeline
