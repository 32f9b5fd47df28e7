import QueryPipeline.Proofs.Group.Spec

/-!
# The document of a grouping

Compiling a grouping is a check and a result: the result is there unless the list of everything that
is wrong with the grouping (`AggregationSpec.violations`) has a first element
(`AggregationSpec.compile_eq_unlessFault`). One output is checked and kept in a step
(`GroupStage.add_eq_unlessFault`), and a run of steps puts the known outputs, one after the other,
into the keyed list of the stage (`GroupStage.foldl_keep`).

A stage that was compiled has outputs with open names only, so its document has nothing to merge:
it is the entries of the stage itself, followed by the outputs (`AggregationSpec.toDocument_stage`).
-/

namespace QueryPipeline

/-! ## What is wrong with a grouping -/

/-- What keeps a field from being referred to. -/
def fieldViolation? (field : String) : Option CompileError :=
  if field = "" then some (.invalidField .aggregation field (.name .empty))
  else if field.toList.head? = some '$' then some (.invalidField .aggregation field (.name .dollar))
  else none

/-- What keeps a field from being referred to is the fault of its name. -/
theorem fieldViolation?_eq (field : String) :
    fieldViolation? field =
      (nameFault? field).map fun fault => .invalidField .aggregation field (.name fault) := by
  ext e
  rw [Option.map_eq_some_iff]
  simp only [nameFault?_eq_some_iff, fieldViolation?]
  by_cases hempty : field = ""
  · simp [hempty]
  · simp [hempty]

/-- A field can be referred to exactly if its name is plain. -/
theorem fieldViolation?_eq_none_iff {field : String} :
    fieldViolation? field = none ↔ IsPlainName field := by
  rw [fieldViolation?_eq, Option.map_eq_none_iff]
  rfl

/-- The check of a field finds what keeps it from being referred to. -/
theorem checkGroupField_eq_unlessFault (field : String) :
    checkGroupField field = unlessFault (fieldViolation? field) () := by
  rw [fieldViolation?_eq, checkGroupField]
  cases nameFault? field with
  | none | some fault => rfl

namespace AggregatorSpec

instance (output : AggregatorSpec) : Decidable output.IsKnown :=
  match h : output.accumulator with
  | .unknown name => isFalse fun known => known name h
  | .avg | .sum | .count | .min | .max | .first => isTrue fun name => by simp [h]

/-- What is wrong with an output: its accumulator is unknown and a strict compiler reads it, or it
is known and its name cannot be referred to or is one that the stage writes itself. -/
def violation? (policy : UnknownPolicy) (title : Option String) (output : AggregatorSpec) :
    Option CompileError :=
  match output.accumulator, policy with
  | .unknown name, .reject => some (.unknownAccumulator name)
  | .unknown _, .ignore => none
  | _, _ =>
    (fieldViolation? output.field).or
      (if output.field = "_id" ∨ (output.field = "group_by_title" ∧ title ≠ none) then
        some (.invalidField .aggregation output.field .reserved)
      else none)

end AggregatorSpec

namespace AggregationSpec

/-- Everything that is wrong with a grouping: with its key unless it is empty, with its title, and
with its outputs in order. -/
def violations (policy : UnknownPolicy) (spec : AggregationSpec) : List CompileError :=
  (if spec.groupBy = "" then none else fieldViolation? spec.groupBy).toList ++
    (spec.title.bind fieldViolation?).toList ++
    spec.aggregators.filterMap (·.violation? policy spec.title)

end AggregationSpec

/-! ## One output -/

namespace AggregatorSpec

variable {policy : UnknownPolicy} {title : Option String} {output : AggregatorSpec}

/-- What is wrong with a known output is wrong with its name. -/
theorem violation?_of_isKnown (policy : UnknownPolicy) (title : Option String)
    (known : output.IsKnown) :
    output.violation? policy title =
      (fieldViolation? output.field).or
        (if output.field = "_id" ∨ (output.field = "group_by_title" ∧ title ≠ none) then
          some (.invalidField .aggregation output.field .reserved)
        else none) := by
  unfold violation?
  split
  · next name h => exact absurd h (known name)
  · next name h => exact absurd h (known name)
  · rfl

/-- Nothing is wrong with an output exactly if a strict compiler would know it and, where it is
known, its name is open. -/
theorem violation?_eq_none_iff :
    output.violation? policy title = none ↔
      (policy = .reject → output.IsKnown) ∧ (output.IsKnown → output.IsOpen title) := by
  by_cases known : output.IsKnown
  · rw [violation?_of_isKnown policy title known, Option.or_eq_none_iff,
      fieldViolation?_eq_none_iff]
    simp only [known, implies_true, forall_const, true_and, ite_eq_right_iff, reduceCtorEq,
      imp_false, not_or, not_and, not_not]
    constructor
    · rintro ⟨plain, not_key, not_title⟩
      exact ⟨plain, not_key, fun titled field => titled (not_title field)⟩
    · rintro ⟨plain, not_key, not_title⟩
      exact ⟨plain, not_key, fun field => by_contra fun titled => not_title titled field⟩
  · obtain ⟨name, hname⟩ := not_isKnown_iff.1 known
    cases policy with
    | reject => simp [violation?, hname, known]
    | ignore => simp [violation?, hname, known]

end AggregatorSpec

namespace GroupStage

/-- The stage with an output, in the place of an output of that name if there is one; an output
whose accumulator is unknown adds nothing. -/
def keep (stage : GroupStage) (output : AggregatorSpec) : GroupStage :=
  if output.IsKnown then
    { stage with outputs := stage.outputs.put output.field output.accumulator }
  else stage

/-- A push finds what is wrong with the name of an output. -/
theorem push_eq_unlessFault (stage : GroupStage) (field : String) (accumulator : Accumulator) :
    stage.push field accumulator =
      unlessFault ((fieldViolation? field).or
          (if field = "_id" ∨ (field = "group_by_title" ∧ stage.title ≠ none) then
            some (.invalidField .aggregation field .reserved)
          else none))
        { stage with outputs := stage.outputs.put field accumulator } := by
  have hreserved : stage.isReserved field = true ↔
      field = "_id" ∨ (field = "group_by_title" ∧ stage.title ≠ none) := by
    simp [isReserved, groupKeyField, groupTitleField, Option.isSome_iff_ne_none]
  unfold push
  rw [checkGroupField_eq_unlessFault]
  refine unlessFault_bind ?_
  simp only [hreserved]
  split
  · rfl
  · rfl

/-- An output is added unless something is wrong with it. -/
theorem add_eq_unlessFault (policy : UnknownPolicy) (stage : GroupStage)
    (output : AggregatorSpec) :
    stage.add policy output =
      unlessFault (output.violation? policy stage.title) (stage.keep output) := by
  by_cases known : output.IsKnown
  · rw [add_of_isKnown policy known, output.violation?_of_isKnown policy stage.title known,
      push_eq_unlessFault, keep, if_pos known]
  · obtain ⟨name, hname⟩ := AggregatorSpec.not_isKnown_iff.1 known
    cases policy with
    | reject => simp [add, AggregatorSpec.violation?, hname, unlessFault]
    | ignore => simp [add, AggregatorSpec.violation?, hname, keep, known]

/-- An output that is kept leaves the title. -/
theorem title_keep (stage : GroupStage) (output : AggregatorSpec) :
    (stage.keep output).title = stage.title := by
  unfold keep
  split
  · rfl
  · rfl

end GroupStage

/-! ## A grouping -/

namespace AggregationSpec

/-- The outputs of a grouping whose accumulators are known. -/
def known (spec : AggregationSpec) : List AggregatorSpec :=
  spec.aggregators.filter fun output => output.IsKnown

end AggregationSpec

/-- The update of a stage's outputs that an output asks for. -/
def AggregatorSpec.update (output : AggregatorSpec) : String × Accumulator :=
  (output.field, output.accumulator)

/-- Outputs that are kept are put into the keyed list of the stage one after the other. -/
theorem GroupStage.foldl_keep (stage : GroupStage) (outputs : List AggregatorSpec) :
    outputs.foldl GroupStage.keep stage =
      { stage with
        outputs := stage.outputs.putAll
          ((outputs.filter fun output => output.IsKnown).map AggregatorSpec.update) } := by
  induction outputs generalizing stage with
  | nil => rfl
  | cons output rest ih =>
    rw [List.foldl_cons, ih, keep]
    by_cases known : output.IsKnown
    · simp only [known, if_true, decide_true, List.filter_cons_of_pos, List.map_cons,
        Keyed.putAll_cons]
      rfl
    · simp only [known, if_false, decide_false, Bool.false_eq_true, not_false_eq_true,
        List.filter_cons_of_neg]

namespace AggregationSpec

/-- The stage that a grouping describes. -/
def stage (spec : AggregationSpec) : GroupStage :=
  ⟨spec.groupBy, spec.title, Keyed.ofUpdates (spec.known.map AggregatorSpec.update)⟩

/-- The names of a grouping pass unless something is wrong with them. -/
theorem checkNames_eq_unlessFault (spec : AggregationSpec) :
    spec.checkNames =
      unlessFault ((if spec.groupBy = "" then none else fieldViolation? spec.groupBy).or
        (spec.title.bind fieldViolation?)) () := by
  have htitle : forM spec.title checkGroupField =
      unlessFault (spec.title.bind fieldViolation?) () := by
    cases spec.title with
    | none => rfl
    | some title => exact checkGroupField_eq_unlessFault title
  unfold checkNames
  by_cases hkey : spec.groupBy = ""
  · simpa [hkey] using htitle
  · simp only [hkey, ne_eq, not_false_eq_true, if_true, if_false, Option.forM_eq_forM,
      checkGroupField_eq_unlessFault]
    exact unlessFault_bind htitle

/-- A grouping compiles to the stage that it describes, unless something is wrong with it. -/
theorem compile_eq_unlessFault (policy : UnknownPolicy) (spec : AggregationSpec) :
    spec.compile policy = unlessFault (spec.violations policy).head? spec.stage := by
  have houtputs : spec.aggregators.foldlM (GroupStage.add policy) spec.bare =
      unlessFault (spec.aggregators.filterMap (·.violation? policy spec.title)).head?
        spec.stage := by
    -- Nothing that is kept changes the title, so each output is checked against the same one.
    have keeps : ∀ (stage : GroupStage) (output : AggregatorSpec), stage.title = spec.title →
        (stage.keep output).title = spec.title :=
      fun stage output same => (stage.title_keep output).trans same
    have step : ∀ (stage : GroupStage) (output : AggregatorSpec), stage.title = spec.title →
        stage.add policy output =
          unlessFault (output.violation? policy spec.title) (stage.keep output) :=
      fun stage output same => same ▸ stage.add_eq_unlessFault policy output
    rw [foldlM_eq_unlessFault keeps step rfl, GroupStage.foldl_keep]
    rfl
  have names (field? title? : Option CompileError) (outputs : List CompileError) :
      (field?.toList ++ title?.toList ++ outputs).head? = (field?.or title?).or outputs.head? := by
    cases field? with
    | some _ => rfl
    | none =>
      cases title? with
      | some _ | none => rfl
  rw [compile_eq, checkNames_eq_unlessFault, violations, names]
  exact unlessFault_bind houtputs

/-- What a grouping must be to compile. -/
structure Compilable (policy : UnknownPolicy) (spec : AggregationSpec) : Prop where
  key : spec.groupBy = "" ∨ IsPlainName spec.groupBy
  title : ∀ title, spec.title = some title → IsPlainName title
  isKnown : policy = .reject → ∀ output ∈ spec.aggregators, output.IsKnown
  isOpen : ∀ output ∈ spec.aggregators, output.IsKnown → output.IsOpen spec.title

/-- Nothing is wrong with a grouping exactly if it is one that compiles. -/
theorem violations_eq_nil_iff {policy : UnknownPolicy} {spec : AggregationSpec} :
    spec.violations policy = [] ↔ spec.Compilable policy := by
  have hkey : (if spec.groupBy = "" then none else fieldViolation? spec.groupBy) = none ↔
      spec.groupBy = "" ∨ IsPlainName spec.groupBy := by
    rw [← fieldViolation?_eq_none_iff]
    by_cases h : spec.groupBy = "" <;> simp [h]
  have htitle : spec.title.bind fieldViolation? = none ↔
      ∀ title, spec.title = some title → IsPlainName title := by
    simp [Option.bind_eq_none_iff, fieldViolation?_eq_none_iff]
  simp only [violations, List.append_eq_nil_iff, Option.toList_eq_nil_iff, hkey, htitle,
    List.filterMap_eq_nil_iff, AggregatorSpec.violation?_eq_none_iff]
  constructor
  · rintro ⟨⟨key, title⟩, outputs⟩
    exact ⟨key, title, fun strict output h => (outputs output h).1 strict,
      fun output h => (outputs output h).2⟩
  · rintro ⟨key, title, isKnown, isOpen⟩
    exact ⟨⟨key, title⟩, fun output h => ⟨fun strict => isKnown strict output h, isOpen output h⟩⟩

end AggregationSpec

/-! ## The document -/

/-- A text that a value holds at some depth. -/
inductive Value.Mentions (text : String) : Value → Prop
  | string : Mentions text (.string text)
  | item {items : List Value} {item : Value} (mem : item ∈ items) (h : Mentions text item) :
      Mentions text (.array items)
  | entry {entries : Document} {key : String} {value : Value} (mem : (key, value) ∈ entries)
      (h : Mentions text value) : Mentions text (.document entries)
  | scope {code key : String} {scope : Document} {value : Value} (mem : (key, value) ∈ scope)
      (h : Mentions text value) : Mentions text (.codeWithScope code scope)

/-- The expression of the store for an accumulator over a field. -/
inductive Accumulator.Renders (field : String) : Accumulator → Value → Prop
  | avg : Renders field .avg (.document [("$avg", .string ("$" ++ field))])
  | sum : Renders field .sum (.document [("$sum", .string ("$" ++ field))])
  | count : Renders field .count (.document [("$sum", .int32 1)])
  | min : Renders field .min (.document [("$min", .string ("$" ++ field))])
  | max : Renders field .max (.document [("$max", .string ("$" ++ field))])
  | first : Renders field .first (.document [("$first", .string ("$" ++ field))])

namespace Accumulator

variable {field : String} {accumulator : Accumulator} {value : Value}

/-- Every accumulator but an unknown one is rendered. -/
theorem exists_expression?_eq_some (known : ∀ name, accumulator ≠ .unknown name) (field : String) :
    ∃ value, accumulator.expression? field = some value ∧ accumulator.Renders field value := by
  cases accumulator with
  | avg => exact ⟨_, rfl, .avg⟩
  | sum => exact ⟨_, rfl, .sum⟩
  | count => exact ⟨_, rfl, .count⟩
  | min => exact ⟨_, rfl, .min⟩
  | max => exact ⟨_, rfl, .max⟩
  | first => exact ⟨_, rfl, .first⟩
  | unknown name => exact absurd rfl (known name)

end Accumulator

/-- The only text in a document with one text is that text. -/
theorem Value.eq_of_mentions_single {operator text other : String}
    (h : Value.Mentions other (.document [(operator, .string text)])) : other = text := by
  cases h with
  | entry mem h =>
    cases List.mem_singleton.1 mem
    cases h
    rfl

/-- The only text in an expression is a reference to its field. -/
theorem Accumulator.Renders.eq_of_mentions {field text : String} {accumulator : Accumulator}
    {value : Value} (h : accumulator.Renders field value) (mentions : value.Mentions text) :
    text = "$" ++ field := by
  cases h with
  | avg | sum | min | max | first => exact Value.eq_of_mentions_single mentions
  | count =>
    cases mentions with
    | entry mem h =>
      cases List.mem_singleton.1 mem
      cases h

namespace AggregationSpec

/-- What a grouping says of the document of its stage. -/
structure Declares (spec : AggregationSpec) (document : Document) : Prop where
  /-- The keys are the stage's own and the names of the known outputs, in order of first
  occurrence. -/
  keys : Keyed.keys document =
    "_id" :: (spec.title.toList.map fun _ => "group_by_title") ++
      (spec.known.map (·.field)).eraseDups
  /-- No key occurs twice. -/
  distinct : document.Distinct
  key : document.lookup "_id" =
    some (if spec.groupBy = "" then .null else .string ("$" ++ spec.groupBy))
  title : ∀ title, spec.title = some title →
    document.lookup "group_by_title" = some (.document [("$first", .string ("$" ++ title))])
  /-- Of the known outputs of one name the last is the one that is rendered. -/
  output : ∀ before output after, spec.known = before ++ output :: after →
    output.field ∉ after.map (·.field) →
    ∃ value, document.lookup output.field = some value ∧
      output.accumulator.Renders output.field value
  /-- Every text is a reference to a field with a plain name. -/
  references : ∀ text, Value.Mentions text (.document document) →
    ∃ name, IsPlainName name ∧ text = "$" ++ name

variable {spec : AggregationSpec}

/-- The names of the outputs of the stage are those of the known outputs, in order of first
occurrence. -/
theorem keys_outputs_stage (spec : AggregationSpec) :
    spec.stage.outputs.keys = (spec.known.map (·.field)).eraseDups := by
  have hkeys : Keyed.keys (spec.known.map AggregatorSpec.update) = spec.known.map (·.field) :=
    List.map_map
  rw [stage, Keyed.keys_ofUpdates, hkeys]

/-- Each output of the stage is a known output of the grouping. -/
theorem exists_known_of_mem_outputs {output : String × Accumulator}
    (h : output ∈ spec.stage.outputs) : ∃ known ∈ spec.known, known.update = output :=
  List.mem_map.1 ((Keyed.mem_of_mem_putAll h).resolve_right List.not_mem_nil)

/-- A known output of a grouping has a known accumulator. -/
theorem isKnown_of_mem_known {output : AggregatorSpec} (h : output ∈ spec.known) :
    output.IsKnown := by
  simpa using (List.mem_filter.1 h).2

/-- A known output of a grouping that compiles has an open name. -/
theorem Compilable.isOpen_of_mem_known {policy : UnknownPolicy} (h : spec.Compilable policy)
    {output : AggregatorSpec} (mem : output ∈ spec.known) : output.IsOpen spec.title :=
  h.isOpen output (List.mem_filter.1 mem).1 (isKnown_of_mem_known mem)

/-- Each output of the stage has an entry in the document. -/
theorem keys_outputEntries_stage (spec : AggregationSpec) :
    Keyed.keys (spec.stage.outputs.filterMap GroupStage.outputEntry?) =
      spec.stage.outputs.keys := by
  suffices h : ∀ outputs : Keyed Accumulator, (∀ output ∈ outputs, ∃ value,
      output.2.expression? output.1 = some value) →
      Keyed.keys (outputs.filterMap GroupStage.outputEntry?) = outputs.keys by
    refine h _ fun output mem => ?_
    obtain ⟨known, hknown, rfl⟩ := exists_known_of_mem_outputs mem
    obtain ⟨value, hvalue, -⟩ :=
      Accumulator.exists_expression?_eq_some (isKnown_of_mem_known hknown) known.field
    exact ⟨value, hvalue⟩
  intro outputs rendered
  induction outputs with
  | nil => rfl
  | cons output rest ih =>
    obtain ⟨⟨value, hvalue⟩, hrest⟩ := List.forall_mem_cons.1 rendered
    rw [List.filterMap_cons_some (b := (output.1, value)) (by simp [GroupStage.outputEntry?, hvalue])]
    exact congrArg _ (ih hrest)

/-- The outputs of a grouping that compiles are not among the stage's own entries. -/
theorem Compilable.not_mem_keys_ownEntries {policy : UnknownPolicy} (h : spec.Compilable policy)
    {name : String} (mem : name ∈ spec.stage.outputs.keys) :
    name ∉ Keyed.keys spec.stage.ownEntries := by
  rw [keys_outputs_stage, List.mem_eraseDups] at mem
  obtain ⟨output, hknown, rfl⟩ := List.mem_map.1 mem
  have free := h.isOpen_of_mem_known hknown
  rw [GroupStage.keys_ownEntries]
  intro own
  rcases List.mem_cons.1 own with own | own
  · exact free.not_key own
  · obtain ⟨title, htitle, own⟩ := List.mem_map.1 own
    have titled : spec.title = some title := Option.mem_toList.1 htitle
    exact free.not_title (by simp [titled]) own.symm

/-- The document of a grouping that compiles is the stage's own entries, followed by its outputs. -/
theorem Compilable.toDocument_stage {policy : UnknownPolicy} (h : spec.Compilable policy) :
    spec.stage.toDocument =
      spec.stage.ownEntries ++ spec.stage.outputs.filterMap GroupStage.outputEntry? := by
  refine Keyed.ofUpdates_of_nodup ?_
  have hkeys : Keyed.keys (spec.stage.ownEntries ++
      spec.stage.outputs.filterMap GroupStage.outputEntry?) =
        Keyed.keys spec.stage.ownEntries ++ spec.stage.outputs.keys := by
    rw [← keys_outputEntries_stage]
    exact List.map_append
  rw [hkeys]
  refine List.nodup_append.2 ⟨spec.stage.nodup_keys_ownEntries, Keyed.nodup_keys_ofUpdates _, ?_⟩
  rintro own hown name hname rfl
  exact h.not_mem_keys_ownEntries hname hown

/-- The last known output of a name is the one that the stage has under that name. -/
theorem lookup_outputs_stage {before after : List AggregatorSpec} {output : AggregatorSpec}
    (split : spec.known = before ++ output :: after)
    (last : output.field ∉ after.map (·.field)) :
    spec.stage.outputs.lookup output.field = some output.accumulator := by
  have later : List.lookup output.field (after.map AggregatorSpec.update).reverse = none := by
    refine Keyed.lookup_eq_none_of_not_mem ?_
    simpa [Keyed.keys, AggregatorSpec.update] using last
  rw [stage, Keyed.lookup_ofUpdates, split, List.map_append, List.map_cons, List.reverse_append,
    List.reverse_cons, List.append_assoc, List.lookup_append, later]
  simp [AggregatorSpec.update]

/-- A text among the stage's own entries is a reference to the key or to the title. -/
theorem Compilable.reference_of_mem_ownEntries {policy : UnknownPolicy}
    (h : spec.Compilable policy) {key text : String} {value : Value}
    (mem : (key, value) ∈ spec.stage.ownEntries) (mentions : value.Mentions text) :
    ∃ name, IsPlainName name ∧ text = "$" ++ name := by
  rcases List.mem_cons.1 mem with own | own
  · obtain ⟨rfl, rfl⟩ := Prod.mk.inj own
    unfold GroupStage.keyValue at mentions
    split at mentions
    · cases mentions
    · next named =>
      cases mentions
      exact ⟨_, h.key.resolve_left named, rfl⟩
  · obtain ⟨title, titled, own⟩ := Option.map_eq_some_iff.1 (Option.mem_toList.1 own)
    obtain ⟨rfl, rfl⟩ := Prod.mk.inj own
    exact ⟨title, h.title title titled, Value.eq_of_mentions_single mentions⟩

/-- A text in an output of a document is a reference to the field of a known output. -/
theorem Compilable.reference_of_mem_outputEntries {policy : UnknownPolicy}
    (h : spec.Compilable policy) {key text : String} {value : Value}
    (mem : (key, value) ∈ spec.stage.outputs.filterMap GroupStage.outputEntry?)
    (mentions : value.Mentions text) : ∃ name, IsPlainName name ∧ text = "$" ++ name := by
  obtain ⟨output, hmem, hentry⟩ := List.mem_filterMap.1 mem
  obtain ⟨known, hknown, rfl⟩ := exists_known_of_mem_outputs hmem
  obtain ⟨rendered, hrendered, renders⟩ :=
    Accumulator.exists_expression?_eq_some (isKnown_of_mem_known hknown) known.field
  obtain ⟨value', hvalue', entry⟩ := Option.map_eq_some_iff.1 hentry
  obtain ⟨rfl, rfl⟩ := Prod.mk.inj entry
  cases hvalue'.symm.trans hrendered
  exact ⟨known.field, (h.isOpen_of_mem_known hknown).plain, renders.eq_of_mentions mentions⟩

/-- The document of a grouping that compiles is what the grouping says of it. -/
theorem Compilable.declares {policy : UnknownPolicy} (h : spec.Compilable policy) :
    spec.Declares spec.stage.toDocument where
  keys := by
    rw [h.toDocument_stage, Keyed.keys, List.map_append]
    change Keyed.keys _ ++ Keyed.keys _ = _
    rw [keys_outputEntries_stage, keys_outputs_stage, GroupStage.keys_ownEntries]
    rfl
  distinct := Keyed.nodup_keys_ofUpdates _
  key := by
    rw [h.toDocument_stage]
    rfl
  title title titled := by
    rw [h.toDocument_stage, GroupStage.ownEntries]
    have htitle : spec.stage.title = some title := titled
    rw [htitle]
    rfl
  output before output after split last := by
    have hlookup := lookup_outputs_stage split last
    have mem : output ∈ spec.known := split ▸ List.mem_append_right _ (.head _)
    have other : List.lookup output.field spec.stage.ownEntries = none := by
      refine Keyed.lookup_eq_none_of_not_mem (h.not_mem_keys_ownEntries ?_)
      rw [keys_outputs_stage, List.mem_eraseDups]
      exact List.mem_map_of_mem mem
    obtain ⟨value, hvalue, renders⟩ :=
      Accumulator.exists_expression?_eq_some (isKnown_of_mem_known mem) output.field
    refine ⟨value, ?_, renders⟩
    rw [h.toDocument_stage, List.lookup_append, other, Option.none_or,
      GroupStage.lookup_outputEntries (Keyed.nodup_keys_ofUpdates _), hlookup]
    exact hvalue
  references text mentions := by
    rw [h.toDocument_stage] at mentions
    cases mentions with
    | entry mem mentions =>
      rcases List.mem_append.1 mem with mem | mem
      · exact h.reference_of_mem_ownEntries mem mentions
      · exact h.reference_of_mem_outputEntries mem mentions

/-- A grouping fails to compile with the first thing that is wrong with it, it compiles exactly if
its names are as they must be, and the document of its stage is what it says. -/
theorem compile_exact (policy : UnknownPolicy) (spec : AggregationSpec) :
    (∀ e, spec.compile policy = .error e ↔ (spec.violations policy).head? = some e) ∧
    ((∃ stage, spec.compile policy = .ok stage) ↔ spec.Compilable policy) ∧
    (∀ stage, spec.compile policy = .ok stage → spec.Declares stage.toDocument) := by
  have nothing : (spec.violations policy).head? = none ↔ spec.Compilable policy := by
    rw [List.head?_eq_none_iff, violations_eq_nil_iff]
  rw [compile_eq_unlessFault]
  refine ⟨fun e => unlessFault_eq_error_iff, ?_, fun stage compiled => ?_⟩
  · simp only [unlessFault_eq_ok_iff, exists_and_left, exists_eq', and_true, nothing]
  · obtain ⟨clean, rfl⟩ := unlessFault_eq_ok_iff.1 compiled
    exact (nothing.1 clean).declares

/-- A grouping by region that declares one of its outputs twice and has one that is unknown. -/
def regions : AggregationSpec :=
  ⟨"region", some "label",
    [⟨"low", .min⟩, ⟨"orders", .count⟩, ⟨"$odd", .unknown "median"⟩, ⟨"low", .first⟩]⟩

/-- An output that is declared again keeps its place and takes the later accumulator, and what a
lenient compiler drops a strict one refuses. -/
theorem compile_exact_regions :
    (∃ stage, regions.compile .ignore = .ok stage ∧ regions.Declares stage.toDocument ∧
      stage.toDocument = [("_id", .string "$region"),
        ("group_by_title", .document [("$first", .string "$label")]),
        ("low", .document [("$first", .string "$low")]),
        ("orders", .document [("$sum", .int32 1)])]) ∧
    regions.compile .reject = .error (.unknownAccumulator "median") := by
  have compiled : regions.compile .ignore =
      .ok ⟨"region", some "label", [("low", .first), ("orders", .count)]⟩ := by rfl
  have refused : (regions.violations .reject).head? = some (.unknownAccumulator "median") := by rfl
  exact ⟨⟨_, compiled, (compile_exact .ignore regions).2.2 _ compiled, by rfl⟩,
    ((compile_exact .reject regions).1 _).2 refused⟩

end AggregationSpec

end QueryPipeline
