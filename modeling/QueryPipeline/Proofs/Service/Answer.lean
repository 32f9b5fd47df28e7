import QueryPipeline.Proofs.Value.Node
import QueryPipeline.Service.Exchange

/-!
# What answers say

What an answer carries is JSON (`ResponseBody.isJson_of_write?`). The text of a pipeline spells a
tree for each stage and one for the count document (`CompiledPipeline.spells_write`), and the text of
a rejection spells its words as one string (`spells_writeRejection`). The words of every error are
listed here as the client reads them (`CompileError.Worded`), with its own label, operator, field or
name in their place; `CompileError.worded_iff` says that the words that are shown are those of the
list, and `CompileError.exists_display_eq` which of them are left without the libraries that read
JSON.
-/

namespace QueryPipeline

open Json

/-! ## The words of errors -/

/-- What a part is called. -/
inductive Part.Named : Part → String → Prop
  | filter : Named .filter "filter"
  | sort : Named .sort "sort"
  | aggregation : Named .aggregation "aggregation"
  | projection : Named .projection "projection"

/-- What is said to be wrong with a condition. -/
inductive ConditionFault.Worded : ConditionFault → String → Prop
  | notText : Worded .notText "expected a string value"
  | empty : Worded (.label .empty) "label must not be empty"
  | dollar : Worded (.label .dollar) "label must not start with `$`"

/-- What is said to be wrong with a field. -/
inductive FieldFault.Worded : FieldFault → String → Prop
  | empty : Worded (.name .empty) "field must not be empty"
  | dollar : Worded (.name .dollar) "field must not start with `$`"
  | reserved : Worded .reserved "name is reserved by the group stage"
  | notPlain : Worded .notPlain "field must be a plain path"
  | notFlag {value : Value} {shown : String} (h : value.display = shown) :
    Worded (.notFlag value) s!"expected 0, 1 or a boolean, got {shown}"

/-- What a compile error says, where `report` is what the libraries that read JSON say of the text of
each part. -/
inductive CompileError.Worded (report : Part → Report) : CompileError → String → Prop
  | unreadable {part : Part} {name : String} {cause : ReadError} {source : String}
    (named : part.Named name) (h : cause.display (report part) = source) :
    Worded report (.unreadable part cause) s!"malformed {name} input: {source}"
  | emptyFilter : Worded report .emptyFilter "filter must contain at least one condition"
  | invalidCondition {label operator reason : String} {fault : ConditionFault}
    (h : fault.Worded reason) :
    Worded report (.invalidCondition label operator fault)
      s!"invalid condition on `{label}` ({operator}): {reason}"
  | invalidField {part : Part} {name field reason : String} {fault : FieldFault}
    (named : part.Named name) (h : fault.Worded reason) :
    Worded report (.invalidField part field fault) s!"invalid {name} field `{field}`: {reason}"
  | unknownOperator {name : String} :
    Worded report (.unknownOperator name) s!"unknown filter operator: {name}"
  | unknownAccumulator {name : String} :
    Worded report (.unknownAccumulator name) s!"unknown aggregation operation: {name}"
  | unknownDirection {name : String} :
    Worded report (.unknownDirection name) s!"unknown sort direction: {name}"

/-- The list of names has one for each part. -/
theorem Part.named_iff {part : Part} {name : String} : part.Named name ↔ part.name = name := by
  constructor
  · intro h
    cases h <;> rfl
  · rintro rfl
    cases part <;> constructor

theorem ConditionFault.worded_iff {fault : ConditionFault} {words : String} :
    fault.Worded words ↔ fault.message = words := by
  constructor
  · intro h
    cases h <;> rfl
  · rintro rfl
    cases fault with
    | notText => exact .notText
    | label fault => cases fault <;> constructor

theorem FieldFault.worded_iff {fault : FieldFault} {words : String} :
    fault.Worded words ↔ fault.message = words := by
  constructor
  · intro h
    cases h with
    | notFlag h =>
      subst h
      rfl
    | empty | dollar | reserved | notPlain => rfl
  · rintro rfl
    cases fault with
    | name fault => cases fault <;> constructor
    | reserved => exact .reserved
    | notPlain => exact .notPlain
    | notFlag value => exact .notFlag rfl

/-- The words that are shown for a compile error are those of the list. -/
theorem CompileError.worded_iff {report : Part → Report} {e : CompileError} {words : String} :
    e.Worded report words ↔ e.display report = words := by
  constructor
  · intro h
    cases h with
    | unreadable named h =>
      obtain rfl := Part.named_iff.1 named
      subst h
      rfl
    | invalidCondition h =>
      obtain rfl := ConditionFault.worded_iff.1 h
      rfl
    | invalidField named h =>
      obtain rfl := Part.named_iff.1 named
      obtain rfl := FieldFault.worded_iff.1 h
      rfl
    | emptyFilter | unknownOperator | unknownAccumulator | unknownDirection => rfl
  · rintro rfl
    cases e with
    | unreadable part cause => exact .unreadable (Part.named_iff.2 rfl) rfl
    | emptyFilter => exact .emptyFilter
    | invalidCondition label operator fault =>
      exact .invalidCondition (ConditionFault.worded_iff.2 rfl)
    | invalidField part field fault =>
      exact .invalidField (Part.named_iff.2 rfl) (FieldFault.worded_iff.2 rfl)
    | unknownOperator name => exact .unknownOperator
    | unknownAccumulator name => exact .unknownAccumulator
    | unknownDirection name => exact .unknownDirection

/-- The headline of an unreadable part begins the words for it. -/
theorem CompileError.display_unreadable (report : Part → Report) (part : Part) (cause : ReadError) :
    (unreadable part cause).display report =
      unreadableHeadline part ++ (": " ++ cause.display (report part)) := by
  have headline : (" input: " : String) = " input" ++ ": " := rfl
  change "malformed " ++ part.name ++ " input: " ++ cause.display (report part) = _
  rw [headline, unreadableHeadline]
  simp only [String.append_assoc]

/-- The words for an error begin with those in which the libraries that read JSON have no part, and
end there too unless a part is not read. -/
theorem CompileError.exists_display_eq (report : Part → Report) (e : CompileError) :
    ∃ rest, e.display report = e.message ++ rest ∧
      ((∀ part cause, e ≠ .unreadable part cause) → rest = "") := by
  cases e with
  | unreadable part cause =>
    rw [display_unreadable]
    cases cause with
    | fault => exact ⟨_, rfl, fun other => absurd rfl (other _ _)⟩
    | mismatch m =>
      refine ⟨(report part).detail m ++ (report part).place, ?_, fun other => absurd rfl (other _ _)⟩
      simp only [message, ReadError.display, String.append_assoc]
  | emptyFilter | invalidCondition | invalidField | unknownOperator | unknownAccumulator
  | unknownDirection => exact ⟨"", String.append_empty.symm, fun _ => rfl⟩

/-- A text is what stands before the place at its end, and that place if there is one. -/
theorem Json.exists_withoutPlace_append : ∀ text : List Char,
    ∃ place, text = withoutPlace text ++ place ∧ (place = [] ∨ isPlace place = true)
  | [] => ⟨[], rfl, .inl rfl⟩
  | c :: rest => by
    unfold withoutPlace
    split
    next whole => exact ⟨c :: rest, rfl, .inr whole⟩
    next =>
      obtain ⟨place, hrest, hplace⟩ := exists_withoutPlace_append rest
      exact ⟨place, by rw [List.cons_append, ← hrest], hplace⟩

/-- Of the words for a mismatch nothing is told apart but a place at their end. -/
theorem Json.Mismatch.exists_words_eq (m : Mismatch) :
    ∃ place, m.words.toList = m.message.toList ++ place ∧ (place = [] ∨ isPlace place = true) := by
  obtain ⟨place, hwords, hplace⟩ := exists_withoutPlace_append m.words.toList
  refine ⟨place, ?_, hplace⟩
  rw [Mismatch.message, String.toList_ofList]
  exact hwords

/-! ## The text of answers -/

/-- The tree that the text of a pipeline spells. -/
def CompiledPipeline.node (pipeline : CompiledPipeline) : Node :=
  .object (.ofList [("pipeline", .array (.ofList (pipeline.toDocuments.map Document.node))),
    ("count", pipeline.count.node)])

/-- The text of a pipeline spells the trees of its documents. -/
theorem CompiledPipeline.spells_write (pipeline : CompiledPipeline) :
    Spells (String.ofList pipeline.write) pipeline.node := by
  have elements : List.Forall₂ SpellsValue (pipeline.toDocuments.map Document.write)
      (pipeline.toDocuments.map Document.node) := by
    rw [List.forall₂_map_left_iff, List.forall₂_map_right_iff]
    exact List.forall₂_same.2 fun d _ => Value.spells_write (.document d)
  have spelled : SpellsValue pipeline.write pipeline.node :=
    spells_writeObject (.cons (spellsMember_writeMember "pipeline" (spells_writeArray elements))
      (.cons (spellsMember_writeMember "count" (Value.spells_write (.document pipeline.count))) .nil))
  exact spelled.spells

/-- The text of a rejection spells its words as the only member of an object. -/
theorem spells_writeRejection (words : String) :
    Spells (String.ofList (writeRejection words)) (.single "error" (.ofText words)) :=
  (spells_writeSingle "error" (spells_writeText words)).spells

/-- What an answer carries is JSON, unless nothing of it is sent but the head. -/
theorem ResponseBody.isJson_of_write? {report : Part → Report} {body : ResponseBody}
    {text : List Char} (h : body.write? report = some text) :
    body = .headOnly ∨ IsJson (String.ofList text) := by
  cases body with
  | none => cases h
  | headOnly => exact .inl rfl
  | healthy =>
    cases h
    exact .inr ⟨_, (spells_writeSingle "status" (spells_writeText "ok")).spells⟩
  | compiled pipeline =>
    cases h
    exact .inr ⟨_, pipeline.spells_write⟩
  | rejected e =>
    cases h
    exact .inr ⟨_, spells_writeRejection _⟩

/-- The text of an answer in which the libraries that read JSON have no part is its text whatever
they say. -/
theorem ResponseBody.write?_of_text? {body : ResponseBody} {text : List Char}
    (h : body.text? = some text) (report : Part → Report) : body.write? report = some text := by
  cases body with
  | rejected e =>
    cases e with
    | unreadable part cause => cases h
    | _ => exact h
  | _ => exact h

end QueryPipeline
