import QueryPipeline.Proofs.Filter.Entry

/-!
# Why a condition is refused

A condition is refused for its operator, which a strict compiler does not know, or for its value, or
for its label, in this order (`Condition.violation?`). What a resolver knows plays no part
(`Condition.compile_eq_error_iff`). Of a list of conditions the first that is refused settles the
error (`compileConditions_eq_error_iff`).
-/

namespace QueryPipeline

/-- The value of a condition with the operator must be a text. -/
def Operator.takesText : Operator → Bool
  | .text | .startsWith | .endsWith | .contains => true
  | _ => false

/-- The entry of a condition with the operator stands under the condition's label. -/
def Operator.isLabelled : Operator → Bool
  | .text | .unknown _ => false
  | _ => true

/-- A value that is a text as a whole. -/
def Value.isText : Value → Bool
  | .string _ => true
  | _ => false

/-- A value is a text exactly if it is some text. -/
theorem Value.isText_iff {value : Value} : value.isText = true ↔ ∃ text, value = .string text := by
  cases value <;> simp [isText]

variable {resolver : Resolver} {policy : UnknownPolicy} {c : Condition} {e : CompileError}

namespace Condition

/-- What is wrong with the value or the label of a condition, where its operator uses them. -/
def fault? (c : Condition) : Option ConditionFault :=
  if c.operator.takesText ∧ ¬ c.value.isText then some .notText
  else if c.operator.isLabelled then (nameFault? c.label).map .label
  else none

/-- What is wrong with a condition: a strict compiler does not know its operator, or there is a fault
in it, which is reported with the label and the operator of the condition. -/
def violation? (policy : UnknownPolicy) (c : Condition) : Option CompileError :=
  match c.operator, policy with
  | .unknown name, .reject => some (.unknownOperator name)
  | _, _ => c.fault?.map (.invalidCondition c.label c.operator.name)

/-- A condition has a fault in its value, or else in its label. -/
theorem fault?_eq_some_iff {fault : ConditionFault} :
    c.fault? = some fault ↔
      (c.operator.takesText ∧ ¬ c.value.isText ∧ .notText = fault) ∨
        ((c.operator.takesText → c.value.isText) ∧ c.operator.isLabelled ∧
          ∃ nameFault, nameFault? c.label = some nameFault ∧ .label nameFault = fault) := by
  unfold fault?
  by_cases takes : c.operator.takesText <;> by_cases text : c.value.isText <;>
    by_cases labelled : c.operator.isLabelled <;> simp [takes, text, labelled]

/-- What is wrong with a condition is its operator or a fault in it; an unknown operator uses neither
the value nor the label. -/
theorem violation?_eq_some_iff :
    c.violation? policy = some e ↔
      (∃ name, c.operator = .unknown name ∧ policy = .reject ∧ .unknownOperator name = e) ∨
        ∃ fault, c.fault? = some fault ∧ .invalidCondition c.label c.operator.name fault = e := by
  rw [← Option.map_eq_some_iff]
  unfold violation?
  split
  case h_1 name operator =>
    have none : c.fault? = none := by
      simp [fault?, operator, Operator.takesText, Operator.isLabelled]
    simp [none, operator]
  case h_2 other =>
    refine (or_iff_right ?_).symm
    rintro ⟨name, operator, strict, -⟩
    exact other name operator strict

/-- A value that must be a text is refused for not being one. -/
theorem textValue_eq_error_iff :
    c.textValue = .error e ↔
      ¬ c.value.isText ∧ .invalidCondition c.label c.operator.name .notText = e := by
  unfold textValue
  cases c.value <;> simp [Value.isText, invalid]

/-- A predicate is refused for the label of its condition. -/
theorem labelled_eq_error_iff {predicate : Value} :
    c.labelled predicate = .error e ↔
      ∃ fault, nameFault? c.label = some fault ∧
        .invalidCondition c.label c.operator.name (.label fault) = e := by
  unfold labelled
  cases nameFault? c.label <;> simp [invalid]

/-- A pattern is refused for the value of its condition, or else for the label. -/
theorem matched_eq_error_iff {build : String → String} :
    c.matched build = .error e ↔
      (¬ c.value.isText ∧ .invalidCondition c.label c.operator.name .notText = e) ∨
        (c.value.isText ∧ ∃ fault, nameFault? c.label = some fault ∧
          .invalidCondition c.label c.operator.name (.label fault) = e) := by
  simp only [matched, bind_eq_error_iff, textValue_eq_error_iff, textValue_eq_ok_iff,
    labelled_eq_error_iff, exists_and_right, Value.isText_iff]

/-- A condition is refused exactly with what is wrong with it. -/
theorem compile_eq_error_iff :
    c.compile resolver policy = .error e ↔ c.violation? policy = some e := by
  unfold compile violation? fault?
  cases operator : c.operator with
  | text =>
    simp [bind_eq_error_iff, textValue_eq_error_iff, operator, pure, Except.pure,
      Operator.takesText, Operator.isLabelled]
  | startsWith | endsWith | contains =>
    by_cases text : c.value.isText <;>
      simp [matched_eq_error_iff, text, operator, Operator.takesText, Operator.isLabelled]
  | unknown name => cases policy <;> simp [Operator.takesText, Operator.isLabelled]
  | equal | eq | absent | present | gte | lte | gt | lt | ne =>
    simp [labelled_eq_error_iff, operator, Operator.takesText, Operator.isLabelled]

/-- A condition compiles exactly if nothing is wrong with it. -/
theorem exists_compile_eq_ok_iff :
    (∃ d, c.compile resolver policy = .ok d) ↔ c.violation? policy = none := by
  rw [← forall_ne_error_iff, Option.eq_none_iff_forall_ne_some]
  exact forall_congr' fun _ => compile_eq_error_iff.not

/-- A condition is refused for an operator that a strict compiler does not know, or with an error
that names its own label and operator. -/
theorem eq_of_compile_eq_error (h : c.compile resolver policy = .error e) :
    (∃ name, policy = .reject ∧ c.operator = .unknown name ∧ e = .unknownOperator name) ∨
      ∃ fault, e = .invalidCondition c.label c.operator.name fault := by
  rcases violation?_eq_some_iff.1 (compile_eq_error_iff.1 h) with
    ⟨name, operator, strict, rfl⟩ | ⟨fault, -, rfl⟩
  · exact .inl ⟨name, strict, operator, rfl⟩
  · exact .inr ⟨fault, rfl⟩

/-- A strict compiler refuses a condition whose operator is unknown. -/
theorem compile_reject_of_unknown {name : String} (h : c.operator = .unknown name) :
    c.compile resolver .reject = .error (.unknownOperator name) := by
  simp [compile, h]

/-- A lenient compiler gives a condition whose operator is unknown the entry that admits
everything. -/
theorem compile_ignore_of_unknown {name : String} (h : c.operator = .unknown name) :
    c.compile resolver .ignore = .ok [] := by
  simp [compile, h, Document.empty]

end Condition

/-- Conditions are refused if there are none, or with the error of the first that is refused. -/
theorem compileConditions_eq_error_iff {conditions : List Condition} :
    compileConditions resolver policy conditions = .error e ↔
      (conditions = [] ∧ e = .emptyFilter) ∨
        ∃ before c after, conditions = before ++ c :: after ∧
          (∀ c' ∈ before, ∃ d, c'.compile resolver policy = .ok d) ∧
          c.compile resolver policy = .error e := by
  cases conditions with
  | nil => simp [compileConditions, eq_comm]
  | cons c rest =>
    rw [← mapM_eq_error_iff]
    simp [compileConditions, bind_eq_error_iff, pure, Except.pure]

/-- Conditions are refused if there are none, or with what is wrong with the first that is wrong. -/
theorem compileConditions_eq_error_iff_violation {conditions : List Condition} :
    compileConditions resolver policy conditions = .error e ↔
      (conditions = [] ∧ e = .emptyFilter) ∨
        ∃ before c after, conditions = before ++ c :: after ∧
          (∀ c' ∈ before, c'.violation? policy = none) ∧ c.violation? policy = some e := by
  simp only [compileConditions_eq_error_iff, Condition.exists_compile_eq_ok_iff,
    Condition.compile_eq_error_iff]

/-- Conditions compile exactly if there are some and nothing is wrong with any of them. -/
theorem exists_compileConditions_eq_ok_iff {conditions : List Condition} :
    (∃ filter, compileConditions resolver policy conditions = .ok filter) ↔
      conditions ≠ [] ∧ ∀ c ∈ conditions, c.violation? policy = none := by
  have compiles : (∀ c ∈ conditions, c.violation? policy = none) ↔
      ∃ entries, conditions.mapM (Condition.compile resolver policy) = .ok entries := by
    simp only [exists_mapM_eq_ok_iff, Condition.exists_compile_eq_ok_iff]
  simp only [compileConditions_eq_ok_iff, exists_and_left, ← mapM_eq_ok_iff, compiles]
  refine and_congr_right fun _ => ⟨?_, ?_⟩
  · rintro ⟨filter, h⟩
    exact ⟨_, h⟩
  · rintro ⟨entries, h⟩
    exact ⟨⟨entries⟩, h⟩

end QueryPipeline
