import QueryPipeline.Group
import QueryPipeline.Proofs.Keyed
import QueryPipeline.Proofs.Outcome

/-!
# The entries a group stage writes itself

A stage is built step by step: a title is set, or an output is pushed, and a push that is refused
changes nothing. Every stage that steps build has distinct outputs, all of them pushed
(`GroupStage.Sound`, `GroupStage.mem_outputs_run`), and none of them takes the place of the key.
The title's name is reserved only while there is a title, so an output that was pushed under it
before the first title stays, and takes the title's place in the document. `toDocument_run` says
what the document of a run begins with, and exactly when that is the key and the title.
-/

namespace QueryPipeline

/-- What is done to a group stage. -/
inductive GroupStep where
  | title (field : String)
  | push (field : String) (accumulator : Accumulator)
deriving DecidableEq

namespace GroupStage

/-- One step; a push that is refused leaves the stage as it was. -/
def step (stage : GroupStage) : GroupStep → GroupStage
  | .title field => stage.withTitle field
  | .push field accumulator =>
    match stage.push field accumulator with
    | .ok pushed => pushed
    | .error _ => stage

/-- The stage after a list of steps. -/
def run (stage : GroupStage) (steps : List GroupStep) : GroupStage :=
  steps.foldl step stage

end GroupStage

namespace GroupStep

/-- The title that a step sets. -/
def title? : GroupStep → Option String
  | .title field => some field
  | .push _ _ => none

/-- The title that is set last. -/
def lastTitle? : List GroupStep → Option String
  | [] => none
  | action :: rest => (lastTitle? rest).or action.title?

/-- The accumulator that is pushed last under the title's name before a title is set. -/
def earlyTitleOutput? : List GroupStep → Option Accumulator
  | [] => none
  | .title _ :: _ => none
  | .push field accumulator :: rest =>
    (earlyTitleOutput? rest).or (if field = groupTitleField then some accumulator else none)

end GroupStep

open GroupStep

namespace GroupStage

variable {stage next : GroupStage} {action : GroupStep}

/-! ## One step -/

/-- A push goes through exactly if the name is plain and the stage does not write it itself. -/
theorem push_eq_ok_iff {field : String} {accumulator : Accumulator} :
    stage.push field accumulator = .ok next ↔
      IsPlainName field ∧ stage.isReserved field = false ∧
        { stage with outputs := stage.outputs.put field accumulator } = next := by
  unfold push checkGroupField IsPlainName
  cases nameFault? field with
  | some fault => simp [invalidGroupField, bind, Except.bind]
  | none =>
    cases stage.isReserved field with
    | true | false => simp [invalidGroupField, bind, Except.bind, pure, Except.pure]

/-- What a step makes of a stage: it sets a title, adds an output with a plain name that the stage
does not write itself, or does nothing. -/
inductive StepsTo (stage : GroupStage) : GroupStep → GroupStage → Prop
  | titled (field : String) : stage.StepsTo (.title field) (stage.withTitle field)
  | pushed {field : String} (accumulator : Accumulator) (plain : IsPlainName field)
      (free : stage.isReserved field = false) :
      stage.StepsTo (.push field accumulator)
        { stage with outputs := stage.outputs.put field accumulator }
  | refused {field : String} {accumulator : Accumulator}
      (refused : ¬ (IsPlainName field ∧ stage.isReserved field = false)) :
      stage.StepsTo (.push field accumulator) stage

/-- Every step is one of these. -/
theorem stepsTo_step (stage : GroupStage) (action : GroupStep) :
    stage.StepsTo action (stage.step action) := by
  cases action with
  | title field => exact .titled field
  | push field accumulator =>
    cases h : stage.push field accumulator with
    | ok next =>
      obtain ⟨plain, free, rfl⟩ := push_eq_ok_iff.1 h
      simp only [step, h]
      exact .pushed accumulator plain free
    | error e =>
      simp only [step, h]
      refine .refused fun ⟨plain, free⟩ => ?_
      rw [push_eq_ok_iff.2 ⟨plain, free, rfl⟩] at h
      cases h

/-- A name that is not reserved is not the key's. -/
theorem ne_groupKeyField_of_not_reserved {field : String} (h : stage.isReserved field = false) :
    field ≠ groupKeyField := by
  rintro rfl
  simp [isReserved] at h

/-- While there is a title, a name that is not reserved is not the title's. -/
theorem ne_groupTitleField_of_not_reserved {field : String} (titled : stage.title.isSome)
    (h : stage.isReserved field = false) : field ≠ groupTitleField := by
  rintro rfl
  simp [isReserved, titled] at h

/-- What holds of the outputs of every stage that steps build. -/
structure Sound (stage : GroupStage) : Prop where
  distinct : stage.outputs.keys.Nodup
  plain : ∀ name ∈ stage.outputs.keys, IsPlainName name
  not_key : groupKeyField ∉ stage.outputs.keys

/-- A stage without outputs is sound. -/
theorem sound_ofKey (key : String) : (ofKey key).Sound :=
  ⟨List.nodup_nil, fun _ h => absurd h List.not_mem_nil, List.not_mem_nil⟩

/-- A step keeps a stage sound. -/
theorem StepsTo.sound (h : stage.StepsTo action next) (hs : stage.Sound) : next.Sound := by
  cases h with
  | titled field => exact ⟨hs.distinct, hs.plain, hs.not_key⟩
  | pushed accumulator plain free =>
    refine ⟨Keyed.nodup_keys_put _ _ _ hs.distinct, ?_, ?_⟩
    · intro name hname
      rcases Keyed.mem_keys_put.1 hname with rfl | hname
      · exact plain
      · exact hs.plain name hname
    · intro hkey
      rcases Keyed.mem_keys_put.1 hkey with hkey | hkey
      · exact ne_groupKeyField_of_not_reserved free hkey.symm
      · exact hs.not_key hkey
  | refused => exact hs

/-- An output after a step was there before or is the one that the step pushes. -/
theorem StepsTo.mem_outputs (h : stage.StepsTo action next) {name : String}
    (hname : name ∈ next.outputs.keys) :
    name ∈ stage.outputs.keys ∨ ∃ accumulator, action = .push name accumulator := by
  cases h with
  | titled field => exact .inl hname
  | pushed accumulator =>
    rcases Keyed.mem_keys_put.1 hname with rfl | hname
    · exact .inr ⟨accumulator, rfl⟩
    · exact .inl hname
  | refused => exact .inl hname

/-- No step changes the key. -/
theorem StepsTo.key_eq (h : stage.StepsTo action next) : next.key = stage.key := by
  cases h with
  | titled | pushed | refused => rfl

/-- The title after a step is the one that the step sets, or else the one before it. -/
theorem StepsTo.title_eq (h : stage.StepsTo action next) :
    next.title = action.title?.or stage.title := by
  cases h with
  | titled | pushed | refused => rfl

/-- While there is a title, a step changes nothing that stands under its name. -/
theorem StepsTo.lookup_title_of_titled (h : stage.StepsTo action next)
    (titled : stage.title.isSome) :
    next.outputs.lookup groupTitleField = stage.outputs.lookup groupTitleField := by
  cases h with
  | titled | refused => rfl
  | pushed accumulator plain free =>
    have hne := ne_groupTitleField_of_not_reserved titled free
    rw [Keyed.lookup_put, if_neg hne.symm]

/-- Before there is a title, a push under its name is what stands there, and no other push changes
it. -/
theorem StepsTo.lookup_title_of_untitled {field : String} {accumulator : Accumulator}
    (h : stage.StepsTo (.push field accumulator) next) (untitled : stage.title = none) :
    next.outputs.lookup groupTitleField =
      if field = groupTitleField then some accumulator
      else stage.outputs.lookup groupTitleField := by
  cases h with
  | pushed =>
    rw [Keyed.lookup_put]
    simp only [eq_comm]
  | refused refused =>
    rw [if_neg]
    rintro rfl
    refine refused ⟨by decide, ?_⟩
    simp [isReserved, untitled, groupKeyField, groupTitleField]

/-! ## A run of steps -/

/-- The first step of a run, and the rest of it. -/
theorem run_cons (stage : GroupStage) (action : GroupStep) (rest : List GroupStep) :
    stage.run (action :: rest) = (stage.step action).run rest :=
  rfl

/-- A run keeps a stage sound. -/
theorem Sound.run (h : stage.Sound) (steps : List GroupStep) : (stage.run steps).Sound := by
  induction steps generalizing stage with
  | nil => exact h
  | cons action rest ih => exact ih ((stepsTo_step stage action).sound h)

/-- An output after a run was there before or is pushed by one of the steps. -/
theorem mem_outputs_run {steps : List GroupStep} {name : String}
    (h : name ∈ (stage.run steps).outputs.keys) :
    name ∈ stage.outputs.keys ∨ ∃ accumulator, .push name accumulator ∈ steps := by
  induction steps generalizing stage with
  | nil => exact .inl h
  | cons action rest ih =>
    rcases ih h with hname | ⟨accumulator, hrest⟩
    · rcases (stepsTo_step stage action).mem_outputs hname with hname | ⟨accumulator, rfl⟩
      · exact .inl hname
      · exact .inr ⟨accumulator, .head _⟩
    · exact .inr ⟨accumulator, .tail _ hrest⟩

/-- No run changes the key. -/
theorem key_run (stage : GroupStage) (steps : List GroupStep) :
    (stage.run steps).key = stage.key := by
  induction steps generalizing stage with
  | nil => rfl
  | cons action rest ih => rw [run_cons, ih, (stepsTo_step stage action).key_eq]

/-- The title after a run is the one set last, or else the one before it. -/
theorem title_run (stage : GroupStage) (steps : List GroupStep) :
    (stage.run steps).title = (lastTitle? steps).or stage.title := by
  induction steps generalizing stage with
  | nil => rfl
  | cons action rest ih =>
    rw [run_cons, ih, (stepsTo_step stage action).title_eq, lastTitle?, Option.or_assoc]

/-- Once there is a title, a run changes nothing that stands under its name. -/
theorem lookup_title_run_of_titled (titled : stage.title.isSome) (steps : List GroupStep) :
    (stage.run steps).outputs.lookup groupTitleField = stage.outputs.lookup groupTitleField := by
  induction steps generalizing stage with
  | nil => rfl
  | cons action rest ih =>
    have hstep := stepsTo_step stage action
    have still : (stage.step action).title.isSome := by
      rw [hstep.title_eq, Option.isSome_or, titled, Bool.or_true]
    rw [run_cons, ih still, hstep.lookup_title_of_titled titled]

/-- What stands under the title's name after a run that begins without a title is what was pushed
there last before the first title. -/
theorem lookup_title_run (untitled : stage.title = none) (steps : List GroupStep) :
    (stage.run steps).outputs.lookup groupTitleField =
      (earlyTitleOutput? steps).or (stage.outputs.lookup groupTitleField) := by
  induction steps generalizing stage with
  | nil => rfl
  | cons action rest ih =>
    have hstep := stepsTo_step stage action
    rw [run_cons]
    cases action with
    -- From the first title on its name is reserved, so what stands there is settled.
    | title field => exact lookup_title_run_of_titled rfl rest
    | push field accumulator =>
      have still : (stage.step (.push field accumulator)).title = none := by
        rw [hstep.title_eq, untitled]
        rfl
      rw [ih still, hstep.lookup_title_of_untitled untitled, earlyTitleOutput?, Option.or_assoc]
      split
      · rfl
      · rfl

/-! ## The document -/

/-- The entries that steps make a stage write itself: the key, and the title that is set last. -/
def ownEntriesOf (key : String) (steps : List GroupStep) : Document :=
  ("_id", if key = "" then .null else .string ("$" ++ key)) ::
    ((lastTitle? steps).map fun title =>
      ("group_by_title", .document [("$first", .string ("$" ++ title))])).toList

/-- The entries that a stage writes itself after a run. -/
theorem ownEntries_run (key : String) (steps : List GroupStep) :
    ((ofKey key).run steps).ownEntries = ownEntriesOf key steps := by
  rw [ownEntries, keyValue, key_run, title_run, ownEntriesOf]
  cases lastTitle? steps with
  | none | some title => rfl

/-- What stands under the title's name in a document. -/
def writtenTitle (stage : GroupStage) (title : String) : Value :=
  ((stage.outputs.lookup groupTitleField).bind (·.expression? groupTitleField)).getD
    (titleValue title)

/-- The entries that the document of a stage begins with. -/
def writtenEntries (stage : GroupStage) : Document :=
  (groupKeyField, stage.keyValue) ::
    (stage.title.map fun title => (groupTitleField, stage.writtenTitle title)).toList

/-- The document of a stage begins with the keys that the stage writes itself. -/
theorem keys_writtenEntries (stage : GroupStage) :
    Keyed.keys stage.writtenEntries = Keyed.keys stage.ownEntries := by
  unfold writtenEntries ownEntries
  cases stage.title with
  | none | some title => rfl

/-- The keys that a stage writes itself. -/
theorem keys_ownEntries (stage : GroupStage) :
    Keyed.keys stage.ownEntries =
      groupKeyField :: stage.title.toList.map fun _ => groupTitleField := by
  unfold ownEntries
  cases stage.title with
  | none | some title => rfl

/-- The entries that a stage writes itself have distinct keys. -/
theorem nodup_keys_ownEntries (stage : GroupStage) : (Keyed.keys stage.ownEntries).Nodup := by
  rw [keys_ownEntries]
  cases stage.title with
  | none => exact List.nodup_singleton _
  | some title => simp [groupKeyField, groupTitleField]

/-- A look-up among the outputs of a document finds what the output of that name computes. -/
theorem lookup_outputEntries (distinct : stage.outputs.keys.Nodup) (name : String) :
    List.lookup name (stage.outputs.filterMap outputEntry?) =
      (stage.outputs.lookup name).bind (·.expression? name) :=
  Keyed.lookup_filterMap (fun name (a : Accumulator) => a.expression? name) distinct name

/-- The outputs of a document are outputs of the stage. -/
theorem keys_outputEntries_sublist (stage : GroupStage) :
    (Keyed.keys (stage.outputs.filterMap outputEntry?)).Sublist stage.outputs.keys :=
  Keyed.keys_filterMap_sublist (fun name (a : Accumulator) => a.expression? name) stage.outputs

/-- The document of a sound stage begins with the key and the title's name, and its other keys are
names of outputs. -/
theorem Sound.toDocument_eq (h : stage.Sound) :
    ∃ rest, stage.toDocument = stage.writtenEntries ++ rest ∧
      ∀ name ∈ Keyed.keys rest, name ∈ stage.outputs.keys := by
  have own := stage.nodup_keys_ownEntries
  have outputs : (Keyed.keys (stage.outputs.filterMap outputEntry?)).Nodup :=
    stage.keys_outputEntries_sublist.nodup h.distinct
  have built : stage.toDocument =
      Keyed.putAll stage.ownEntries (stage.outputs.filterMap outputEntry?) := by
    conv_rhs => rw [← Keyed.ofUpdates_of_nodup own]
    exact List.foldl_append
  refine ⟨(stage.outputs.filterMap outputEntry?).filter fun output =>
    output.1 ∉ Keyed.keys stage.ownEntries, ?_, ?_⟩
  · rw [built, Keyed.putAll_of_nodup own outputs]
    congr 1
    have hkey : List.lookup groupKeyField stage.outputs = none :=
      Keyed.lookup_eq_none_of_not_mem h.not_key
    unfold ownEntries writtenEntries writtenTitle
    cases stage.title with
    | none => simp [lookup_outputEntries h.distinct, hkey]
    | some title => simp [lookup_outputEntries h.distinct, hkey]
  · intro name hname
    have kept := Keyed.keys_sublist (List.filter_sublist (p := fun output =>
      output.1 ∉ Keyed.keys stage.ownEntries) (l := stage.outputs.filterMap outputEntry?))
    exact (kept.trans stage.keys_outputEntries_sublist).subset hname

/-- An output leaves the title as it is exactly if it has no expression or has the title's own. -/
theorem getD_expression?_eq_titleValue_iff {accumulator : Accumulator} {title : String} :
    (accumulator.expression? groupTitleField).getD (titleValue title) = titleValue title ↔
      (∃ name, accumulator = .unknown name) ∨
        (accumulator = .first ∧ title = groupTitleField) := by
  cases accumulator with
  | avg | sum | min | max | first | unknown name =>
    simp [Accumulator.expression?, titleValue, Document.single, fieldReference, eq_comm]
  | count => simp [Accumulator.expression?, titleValue, Document.single]

/-- The document of a sound stage begins with the entries that the stage writes itself exactly if
no output that computes something else stands under the title's name. -/
theorem Sound.ownEntries_kept_iff (h : stage.Sound) :
    (∃ rest, stage.toDocument = stage.ownEntries ++ rest ∧
        ∀ name ∈ Keyed.keys rest, name ∈ stage.outputs.keys) ↔
      ∀ title, stage.title = some title →
        ∀ accumulator, stage.outputs.lookup groupTitleField = some accumulator →
          (∃ name, accumulator = .unknown name) ∨
            (accumulator = .first ∧ title = groupTitleField) := by
  obtain ⟨rest, hdocument, hrest⟩ := h.toDocument_eq
  have sameLength : stage.writtenEntries.length = stage.ownEntries.length := by
    simp only [writtenEntries, ownEntries, List.length_cons, Option.length_toList,
      Option.isSome_map]
  have prefixes : (∃ rest, stage.toDocument = stage.ownEntries ++ rest ∧
      ∀ name ∈ Keyed.keys rest, name ∈ stage.outputs.keys) ↔
        stage.writtenEntries = stage.ownEntries := by
    constructor
    · rintro ⟨other, hother, -⟩
      exact (List.append_inj (hdocument.symm.trans hother) sameLength).1
    · intro same
      exact ⟨rest, same ▸ hdocument, hrest⟩
  rw [prefixes]
  unfold writtenEntries ownEntries writtenTitle
  cases stage.title with
  | none => simp
  | some title =>
    cases stage.outputs.lookup groupTitleField with
    | none => simp
    | some accumulator => simp [getD_expression?_eq_titleValue_iff]

/-- After every run the outputs are distinct and pushed, and the document, whose keys are distinct,
begins with the key and the title's name, followed by names of outputs. The title's own expression
stands under its name exactly if what was pushed there last before the first title has no
expression or has the same. -/
theorem toDocument_run (key : String) (steps : List GroupStep) :
    let stage := (ofKey key).run steps
    let own := ownEntriesOf key steps
    stage.outputs.keys.Nodup ∧
    (∀ name ∈ stage.outputs.keys, ∃ accumulator, .push name accumulator ∈ steps) ∧
    (Keyed.keys stage.toDocument).Nodup ∧
    (∃ entries rest, stage.toDocument = entries ++ rest ∧ Keyed.keys entries = Keyed.keys own ∧
      entries.head? = own.head? ∧ ∀ name ∈ Keyed.keys rest, name ∈ stage.outputs.keys) ∧
    ((∃ rest, stage.toDocument = own ++ rest ∧
        ∀ name ∈ Keyed.keys rest, name ∈ stage.outputs.keys) ↔
      ∀ title, lastTitle? steps = some title →
        ∀ accumulator, earlyTitleOutput? steps = some accumulator →
          (∃ name, accumulator = .unknown name) ∨
            (accumulator = .first ∧ title = groupTitleField)) := by
  intro stage own
  have sound : stage.Sound := (sound_ofKey key).run steps
  have hown : stage.ownEntries = own := ownEntries_run key steps
  have htitle : stage.title = lastTitle? steps := by
    rw [title_run, ofKey, Option.or_none]
  have hearly : stage.outputs.lookup groupTitleField = earlyTitleOutput? steps := by
    rw [lookup_title_run rfl, ofKey, List.lookup_nil, Option.or_none]
  refine ⟨sound.distinct, fun name hname => ?_, Keyed.nodup_keys_ofUpdates _, ?_, ?_⟩
  · exact (mem_outputs_run hname).resolve_left List.not_mem_nil
  · obtain ⟨rest, hdocument, hrest⟩ := sound.toDocument_eq
    refine ⟨_, rest, hdocument, ?_, ?_, hrest⟩
    · rw [← hown, keys_writtenEntries]
    · rw [← hown]
      rfl
  · rw [← hown, ← htitle, ← hearly]
    exact sound.ownEntries_kept_iff

/-- An output that is pushed under the title's name before the title is set replaces the title. -/
theorem toDocument_run_title_replaced :
    let steps := [.push "group_by_title" .sum, .title "t"]
    let stage := (ofKey "g").run steps
    stage.toDocument = [("_id", .string "$g"),
      ("group_by_title", .document [("$sum", .string "$group_by_title")])] ∧
    ¬ ∃ rest, stage.toDocument = ownEntriesOf "g" steps ++ rest := by
  intro steps stage
  have hdocument : stage.toDocument = [("_id", .string "$g"),
      ("group_by_title", .document [("$sum", .string "$group_by_title")])] := by rfl
  refine ⟨hdocument, ?_⟩
  rintro ⟨rest, hrest⟩
  rw [hdocument] at hrest
  simp [steps, ownEntriesOf, lastTitle?, title?] at hrest

end GroupStage

end QueryPipeline
