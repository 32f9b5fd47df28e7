import QueryPipeline.Proofs.Filter.Fault
import QueryPipeline.Proofs.Unknown.Names

/-!
# Which filters are accepted

A client writes a condition with a word for its operator (`Term`). `Term.Acceptable` says in these
words which terms a compiler takes, and `Term.Refused` with which error it refuses the others, where
the error repeats the client's label and word as they were written. Both speak of one term alone and
of no resolver.

`compileConditions_all_or_nothing` says of a list of terms that it is taken as a whole, one entry for
each term, exactly if each term is acceptable, and that otherwise the first one that is not settles
the error.
-/

namespace QueryPipeline

/-- The words of the operators that match a pattern. -/
def Operator.patternWords : List String := ["Start With", "End With", "Include"]

/-- One term of a filter as a client writes it, with a word for the operator. -/
structure Term where
  label : String
  operation : String
  value : Value

namespace Term

/-- The condition of a term. -/
def condition (t : Term) : Condition :=
  ⟨t.label, .ofName t.operation, t.value⟩

/-- A term that a compiler takes: one of an unknown operator if the compiler is lenient, a search
for a text under any label, or another operator under a plain label, with a text if it matches a
pattern. -/
inductive Acceptable (policy : UnknownPolicy) (t : Term) : Prop
  | ignored (word : t.operation ∉ Operator.known) (lenient : policy = .ignore)
  | search (word : t.operation = "text") (value : ∃ text, t.value = .string text)
  | labelled (word : t.operation ∈ Operator.known) (other : t.operation ≠ "text")
      (label : t.label ≠ "" ∧ t.label.toList.head? ≠ some '$')
      (value : t.operation ∈ Operator.patternWords → ∃ text, t.value = .string text)

/-- What is wrong with the value or the label of a term of a known operator. The value is looked at
before the label, and a search has no use for the label. -/
inductive Wrong (t : Term) : ConditionFault → Prop
  | value (word : t.operation ∈ "text" :: Operator.patternWords)
      (other : ∀ text, t.value ≠ .string text) : Wrong t .notText
  | noLabel (word : t.operation ∈ Operator.known) (other : t.operation ≠ "text")
      (value : t.operation ∈ Operator.patternWords → ∃ text, t.value = .string text)
      (label : t.label = "") : Wrong t (.label .empty)
  | operatorLabel (word : t.operation ∈ Operator.known) (other : t.operation ≠ "text")
      (value : t.operation ∈ Operator.patternWords → ∃ text, t.value = .string text)
      (label : t.label.toList.head? = some '$') : Wrong t (.label .dollar)

/-- The error that a term is refused with: its word, or its label and its word with what is
wrong. -/
inductive Refused (policy : UnknownPolicy) (t : Term) : CompileError → Prop
  | unknown (word : t.operation ∉ Operator.known) (strict : policy = .reject) :
      Refused policy t (.unknownOperator t.operation)
  | invalid {fault : ConditionFault} (wrong : t.Wrong fault) :
      Refused policy t (.invalidCondition t.label t.operation fault)

end Term

/-! ## Words -/

/-- The operators that take a text are those of a search and of a pattern. -/
theorem Operator.takesText_ofName_iff {word : String} :
    (ofName word).takesText ↔ word ∈ "text" :: patternWords := by
  unfold ofName
  split <;> simp_all [takesText, patternWords]

/-- The entry of a known operator stands under a label, unless it is a search. -/
theorem Operator.isLabelled_ofName_iff {word : String} :
    (ofName word).isLabelled ↔ word ∈ known ∧ word ≠ "text" := by
  unfold ofName
  split <;> simp_all [isLabelled, known]

/-- The words of patterns are known words. -/
theorem Operator.known_of_mem_patternWords {word : String} (h : word ∈ "text" :: patternWords) :
    word ∈ known :=
  (by decide : ∀ word ∈ "text" :: patternWords, word ∈ known) word h

namespace Term

variable {policy : UnknownPolicy} {t : Term} {e : CompileError}

/-! ## One term -/

/-- The condition of a term has the word as the name of its operator. -/
theorem name_operator_condition (t : Term) : t.condition.operator.name = t.operation :=
  Operator.name_ofName t.operation

/-- What is wrong with the value or the label of a term is what is wrong in its condition. -/
theorem wrong_iff {fault : ConditionFault} :
    t.Wrong fault ↔ t.condition.fault? = some fault := by
  have takesText_iff : t.condition.operator.takesText ↔
      t.operation ∈ "text" :: Operator.patternWords := Operator.takesText_ofName_iff
  have isLabelled_iff : t.condition.operator.isLabelled ↔
      t.operation ∈ Operator.known ∧ t.operation ≠ "text" := Operator.isLabelled_ofName_iff
  have isText_iff : t.condition.value.isText ↔ ∃ text, t.value = .string text := Value.isText_iff
  rw [Condition.fault?_eq_some_iff, takesText_iff, isLabelled_iff, isText_iff]
  constructor
  · rintro (⟨word, other⟩ | ⟨word, other, value, label⟩ | ⟨word, other, value, label⟩)
    · exact .inl ⟨word, fun ⟨text, h⟩ => other text h, rfl⟩
    all_goals
      have text (takes : t.operation ∈ "text" :: Operator.patternWords) :
          ∃ text, t.value = .string text := value ((List.mem_cons.1 takes).resolve_left other)
    · exact .inr ⟨text, ⟨word, other⟩, _, nameFault?_eq_some_iff.2 (.inl ⟨label, rfl⟩), rfl⟩
    · exact .inr ⟨text, ⟨word, other⟩, _, nameFault?_eq_some_iff.2 (.inr ⟨label, rfl⟩), rfl⟩
  · rintro (⟨word, other, rfl⟩ | ⟨value, ⟨word, other⟩, nameFault, hname, rfl⟩)
    · exact .value word fun text h => other ⟨text, h⟩
    · rcases nameFault?_eq_some_iff.1 hname with ⟨label, rfl⟩ | ⟨label, rfl⟩
      · exact .noLabel word other (fun takes => value (.tail _ takes)) label
      · exact .operatorLabel word other (fun takes => value (.tail _ takes)) label

/-- A term is refused with what is wrong with its condition. -/
theorem refused_iff : t.Refused policy e ↔ t.condition.violation? policy = some e := by
  rw [Condition.violation?_eq_some_iff, name_operator_condition]
  constructor
  · rintro (⟨word, strict⟩ | ⟨wrong⟩)
    · exact .inl ⟨_, Operator.ofName_eq_unknown_iff.2 ⟨word, rfl⟩, strict, rfl⟩
    · exact .inr ⟨_, wrong_iff.1 wrong, rfl⟩
  · rintro (⟨name, operator, strict, rfl⟩ | ⟨fault, h, rfl⟩)
    · obtain ⟨word, rfl⟩ := Operator.ofName_eq_unknown_iff.1 operator
      exact .unknown word strict
    · exact .invalid (wrong_iff.2 h)

/-- What is wrong is wrong with a term of a known operator. -/
theorem Wrong.known {fault : ConditionFault} (wrong : t.Wrong fault) :
    t.operation ∈ Operator.known := by
  cases wrong with
  | value takes => exact Operator.known_of_mem_patternWords takes
  | noLabel word | operatorLabel word => exact word

/-- Nothing is wrong with the value or the label of a term that is acceptable. -/
theorem Acceptable.not_wrong {fault : ConditionFault} (accepted : t.Acceptable policy) :
    ¬ t.Wrong fault := by
  intro wrong
  cases accepted with
  | ignored unknown => exact unknown wrong.known
  | search search value =>
    obtain ⟨text, value⟩ := value
    cases wrong with
    | value _ other => exact other text value
    | noLabel _ other | operatorLabel _ other => exact other search
  | labelled _ labelled plain value =>
    cases wrong with
    | value takes other =>
      obtain ⟨text, value⟩ := value ((List.mem_cons.1 takes).resolve_left labelled)
      exact other text value
    | noLabel _ _ _ label => exact plain.1 label
    | operatorLabel _ _ _ label => exact plain.2 label

/-- A term is acceptable exactly if it is not refused. -/
theorem acceptable_iff : t.Acceptable policy ↔ ∀ e, ¬ t.Refused policy e := by
  constructor
  · rintro accepted e (⟨word, strict⟩ | ⟨wrong⟩)
    · cases accepted with
      | ignored _ lenient => cases strict.symm.trans lenient
      | search search => exact word (search ▸ by decide)
      | labelled known => exact word known
    · exact accepted.not_wrong wrong
  · intro h
    by_cases known : t.operation ∈ Operator.known
    · have value (takes : t.operation ∈ "text" :: Operator.patternWords) :
          ∃ text, t.value = .string text :=
        by_contra fun none => h _ (.invalid (.value takes fun text e => none ⟨text, e⟩))
      by_cases search : t.operation = "text"
      · exact .search search (value (search ▸ .head _))
      · have plain := fun word => value (.tail _ word)
        exact .labelled known search
          ⟨fun label => h _ (.invalid (.noLabel known search plain label)),
            fun label => h _ (.invalid (.operatorLabel known search plain label))⟩ plain
    · cases policy with
      | ignore => exact .ignored known rfl
      | reject => exact absurd (.unknown known rfl) (h _)

/-- A term is acceptable exactly if nothing is wrong with its condition. -/
theorem acceptable_iff_violation : t.Acceptable policy ↔ t.condition.violation? policy = none := by
  rw [acceptable_iff, Option.eq_none_iff_forall_ne_some]
  exact forall_congr' fun _ => refused_iff.not

end Term

/-! ## A filter -/

/-- Terms are refused if there are none, or with what the first is refused with that is not
acceptable. -/
theorem compileConditions_terms_eq_error_iff {resolver : Resolver} {policy : UnknownPolicy}
    {terms : List Term} {e : CompileError} :
    compileConditions resolver policy (terms.map Term.condition) = .error e ↔
      (terms = [] ∧ e = .emptyFilter) ∨
        ∃ before t after, terms = before ++ t :: after ∧ (∀ t' ∈ before, t'.Acceptable policy) ∧
          t.Refused policy e := by
  simp only [compileConditions_eq_error_iff_violation, List.map_eq_nil_iff, Term.refused_iff,
    Term.acceptable_iff_violation]
  refine or_congr_right ⟨?_, ?_⟩
  · rintro ⟨_, _, _, split, before, refused⟩
    obtain ⟨first, rest, rfl, rfl, hrest⟩ := List.map_eq_append_iff.1 split
    obtain ⟨t, after, rfl, rfl, rfl⟩ := List.map_eq_cons_iff.1 hrest
    exact ⟨first, t, after, rfl, List.forall_mem_map.1 before, refused⟩
  · rintro ⟨first, t, after, rfl, before, refused⟩
    exact ⟨_, _, _, List.map_append, List.forall_mem_map.2 before, refused⟩

/-- Terms are compiled as a whole, whatever the resolver. There must be one at least, and each must
be acceptable; then each has its own entry, at its place, which is the entry it has alone. Otherwise
the first term that is not acceptable settles the error: the one that it is refused with, whatever
stands after it. -/
theorem compileConditions_all_or_nothing (resolver : Resolver) (policy : UnknownPolicy)
    (terms : List Term) :
    let outcome := compileConditions resolver policy (terms.map Term.condition)
    (outcome = .error .emptyFilter ↔ terms = []) ∧
    ((∃ filter, outcome = .ok filter) ↔ terms ≠ [] ∧ ∀ t ∈ terms, t.Acceptable policy) ∧
    (∀ filter, outcome = .ok filter →
      filter.size = terms.length ∧
      List.Forall₂ (fun t d => t.condition.compile resolver policy = .ok d)
        terms filter.entries) ∧
    ∀ before t after, terms = before ++ t :: after → (∀ t' ∈ before, t'.Acceptable policy) →
      ¬ t.Acceptable policy →
      (∃ e, t.Refused policy e) ∧ ∀ e, t.Refused policy e ↔ outcome = .error e := by
  intro outcome
  refine ⟨?_, ?_, fun filter h => ?_, ?_⟩
  · refine ⟨fun h => ?_, fun h => compileConditions_terms_eq_error_iff.2 (.inl ⟨h, rfl⟩)⟩
    rcases compileConditions_terms_eq_error_iff.1 h with ⟨none, -⟩ | ⟨_, _, _, -, -, refused⟩
    · exact none
    · cases refused
  · rw [exists_compileConditions_eq_ok_iff, ne_eq, List.map_eq_nil_iff, List.forall_mem_map]
    simp only [Term.acceptable_iff_violation, ne_eq]
  · have entries := (compileConditions_eq_ok_iff.1 h).2
    rw [List.forall₂_map_left_iff] at entries
    exact ⟨entries.length_eq.symm, entries⟩
  · rintro before t after rfl accepted unacceptable
    have fails {e : CompileError} (refused : t.Refused policy e) : outcome = .error e :=
      compileConditions_terms_eq_error_iff.2 (.inr ⟨before, t, after, rfl, accepted, refused⟩)
    obtain ⟨e, refused⟩ : ∃ e, t.Refused policy e := by
      simpa [Term.acceptable_iff] using unacceptable
    refine ⟨⟨e, refused⟩, fun e' => ⟨fails, fun failed => ?_⟩⟩
    cases Except.error.inj ((fails refused).symm.trans failed)
    exact refused

/-- Two terms under one label have an entry each. Of a pattern under an operator's label the value is
what is reported, and the unknown word after it is not. -/
theorem compileConditions_all_or_nothing_repeated_and_refused :
    let twice : List Term := [⟨"a", ">=", .null⟩, ⟨"a", "Include", .string "x"⟩]
    let refused : Term := ⟨"$a", "Include", .null⟩
    (∃ filter, compileConditions .noop .reject (twice.map Term.condition) = .ok filter ∧
      filter.size = 2) ∧
    compileConditions .noop .reject ((twice ++ [refused, ⟨"a", "near", .null⟩]).map Term.condition) =
      .error (.invalidCondition "$a" "Include" .notText) := by
  intro twice refused
  have accepted : ∀ t ∈ twice, t.Acceptable .reject := by
    refine List.forall_mem_cons.2 ⟨?_, List.forall_mem_singleton.2 ?_⟩
    · exact .labelled (by decide) (by decide) (by decide) fun word => absurd word (by decide)
    · exact .labelled (by decide) (by decide) (by decide) fun _ => ⟨"x", rfl⟩
  have wrong : refused.Refused .reject (.invalidCondition "$a" "Include" .notText) :=
    .invalid (.value (by decide) fun _ => nofun)
  constructor
  · obtain ⟨-, compiles, entries, -⟩ := compileConditions_all_or_nothing .noop .reject twice
    obtain ⟨filter, h⟩ := compiles.2 ⟨nofun, accepted⟩
    exact ⟨filter, h, (entries filter h).1⟩
  · obtain ⟨-, -, -, fails⟩ := compileConditions_all_or_nothing .noop .reject
      (twice ++ [refused, ⟨"a", "near", .null⟩])
    exact ((fails twice refused _ rfl accepted fun h => Term.acceptable_iff.1 h _ wrong).2 _).1 wrong

end QueryPipeline
