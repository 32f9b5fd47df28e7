import QueryPipeline.Proofs.Filter.Fault
import QueryPipeline.Proofs.Keyed

/-!
# What a resolver reaches

A condition asks a resolver for one text at most, the whole of its value, and only where its operator
coerces (`Condition.Asks`). Two resolvers that agree on what is asked compile a condition alike
(`Condition.compile_agree`), and what is refused is refused with the same error under each resolver.
`Condition.Keeps` lists, operator by operator, the values that stand in an entry as the client wrote
them, and `Condition.ReadsFrom` says which ones a table replaces.
`compileConditions_coerces_operands_only` puts this together for a filter.
-/

namespace QueryPipeline

/-- The operators that coerce their value. -/
def Operator.coercing : List Operator := [.eq, .gte, .lte, .gt, .lt, .ne]

/-- A condition whose operator coerces asks for the text that is its value. -/
def Condition.Asks (c : Condition) (text : String) : Prop :=
  c.operator ∈ Operator.coercing ∧ c.value = .string text

/-- Two resolvers coerce each text alike that one of the conditions asks for. -/
def Resolver.AgreeOn (conditions : List Condition) (resolver resolver' : Resolver) : Prop :=
  ∀ c ∈ conditions, ∀ text, c.Asks text →
    coerce resolver (.string text) = coerce resolver' (.string text)

/-- An entry in which the value of its condition stands as the client wrote it: under an operator
that does not coerce, as a list of choices, or where it is no text. -/
structure Condition.Keeps (c : Condition) (d : Document) : Prop where
  verbatim : c.operator = .equal → d = [(c.label, .document [("$eq", c.value)])]
  search : c.operator = .text → d = [("$text", .document [("$search", c.value)])]
  pattern : ∀ build, c.operator.pattern? = some build → ∃ text, c.value = .string text ∧
    d = [(c.label, .document [("$regex", .string (build text)), ("$options", .string "i")])]
  choices : c.operator = .eq → ∀ items, c.value = .array items →
    d = [(c.label, .document [("$in", c.value)])]
  operand : ∀ comparator, c.operator.comparator? = some comparator →
    (c.operator = .eq → ∀ items, c.value ≠ .array items) → (∀ text, c.value ≠ .string text) →
    d = [(c.label, .document [(comparator.key, c.value)])]

/-- An entry whose operand is what a table has for the text that its condition asks for. -/
def Condition.ReadsFrom (table : Keyed Value) (c : Condition) (d : Document) : Prop :=
  ∀ comparator text value, c.operator.comparator? = some comparator → c.value = .string text →
    table.lookup text = some value → d = [(c.label, .document [(comparator.key, value)])]

/-! ## Coercing -/

/-- An operator coerces its value exactly if it compares with the coerced value. -/
theorem Operator.mem_coercing_iff {operator : Operator} :
    operator ∈ coercing ↔ ∃ comparator, operator.comparator? = some comparator := by
  cases operator <;> simp [coercing, comparator?]

/-- A value that is no text is not coerced. -/
theorem coerce_of_not_text {resolver : Resolver} {value : Value}
    (h : ∀ text, value ≠ .string text) : coerce resolver value = value := by
  cases value with
  | string text => exact absurd rfl (h text)
  | _ => rfl

/-- A text that is no key of a table is not coerced by it. -/
theorem coerce_ofTable_of_notMem {table : Keyed Value} {text : String} (h : text ∉ table.keys) :
    coerce (.ofTable table) (.string text) = coerce .noop (.string text) := by
  rw [coerce_ofTable, Keyed.lookup_eq_none_of_not_mem h]
  rfl

namespace Condition

variable {resolver resolver' : Resolver} {policy : UnknownPolicy} {c : Condition} {d : Document}

/-! ## One condition -/

/-- A compiled entry under a label is the entry of the condition's own label. -/
theorem eq_of_labelled {predicate : Value} (h : c.labelled predicate = .ok d) :
    d = [(c.label, predicate)] := by
  obtain ⟨label, own, rfl⟩ := labelled_eq_ok_iff.1 h
  rw [own]

/-- A list of choices compiles to itself. -/
theorem compile_of_choices {items : List Value} (operator : c.operator = .eq)
    (value : c.value = .array items) :
    c.compile resolver policy = c.labelled (comparison "$in" c.value) := by
  simp only [compile, operator, value, equality]

/-- Two resolvers that agree on what a condition asks for compile it alike. -/
theorem compile_agree
    (agree : ∀ text, c.Asks text →
      coerce resolver (.string text) = coerce resolver' (.string text)) :
    c.compile resolver policy = c.compile resolver' policy := by
  cases h : c.operator.comparator? with
  | none =>
    -- No other operator looks at the resolver.
    unfold compile
    cases operator : c.operator <;> simp_all [Operator.comparator?]
  | some comparator =>
    by_cases choices : c.operator = .eq ∧ ∃ items, c.value = .array items
    · obtain ⟨operator, items, value⟩ := choices
      rw [compile_of_choices operator value, compile_of_choices operator value]
    · have single (operator : c.operator = .eq) (items : List Value) : c.value ≠ .array items :=
        fun value => choices ⟨operator, items, value⟩
      have operands : coerce resolver c.value = coerce resolver' c.value := by
        by_cases text : ∃ text, c.value = .string text
        · obtain ⟨text, value⟩ := text
          rw [value]
          exact agree text ⟨Operator.mem_coercing_iff.2 ⟨comparator, h⟩, value⟩
        · have other (s : String) : c.value ≠ .string s := fun value => text ⟨s, value⟩
          rw [coerce_of_not_text other, coerce_of_not_text other]
      rw [compile_of_comparator? h single, compile_of_comparator? h single, operands]

/-- A compiled condition keeps the values that its operator does not coerce. -/
theorem keeps_of_compile (h : c.compile resolver policy = .ok d) : c.Keeps d where
  verbatim operator := by
    simp only [compile, operator] at h
    exact eq_of_labelled h
  search operator := by
    simp only [compile, operator, bind_eq_ok_iff, textValue_eq_ok_iff, pure_eq_ok_iff] at h
    obtain ⟨text, value, rfl⟩ := h
    rw [value]
    rfl
  pattern build operator := by
    rw [compile_of_pattern? operator, matched_eq_ok_iff] at h
    obtain ⟨label, text, value, own, rfl⟩ := h
    exact ⟨text, value, own ▸ rfl⟩
  choices operator items value := by
    rw [compile_of_choices operator value] at h
    exact eq_of_labelled h
  operand comparator operator single other := by
    rw [compile_of_comparator? operator single, coerce_of_not_text other] at h
    exact eq_of_labelled h

/-- A compiled condition has its operand from the table where the table has what it asks for. -/
theorem readsFrom_of_compile {table : Keyed Value}
    (h : c.compile (.ofTable table) policy = .ok d) : c.ReadsFrom table d := by
  intro comparator text value operator own found
  have single (_ : c.operator = .eq) (items : List Value) : c.value ≠ .array items := by
    simp [own]
  rw [compile_of_comparator? operator single, own, coerce_ofTable, found, Option.getD_some] at h
  exact eq_of_labelled h

end Condition

/-! ## A filter -/

/-- Two resolvers that agree on what the conditions ask for compile them alike. -/
theorem compileConditions_agree {resolver resolver' : Resolver} {policy : UnknownPolicy}
    {conditions : List Condition} (agree : resolver.AgreeOn conditions resolver') :
    compileConditions resolver policy conditions = compileConditions resolver' policy conditions := by
  have entries : conditions.mapM (Condition.compile resolver policy) =
      conditions.mapM (Condition.compile resolver' policy) :=
    mapM_congr fun c hc => Condition.compile_agree (agree c hc)
  cases conditions with
  | nil => rfl
  | cons => simp only [compileConditions, entries]

/-- A resolver reaches the operands only that its conditions ask for. Resolvers that agree on these
give the same result; what is refused is the same under all of them, and every other value stands in
its entry as the client wrote it. A table none of whose keys is asked for changes nothing, and where
a condition asks for a key the operand is what the table has there, whatever it is: an array under
the operator `=` is no list of choices. -/
theorem compileConditions_coerces_operands_only (policy : UnknownPolicy)
    (conditions : List Condition) :
    (∀ resolver resolver' : Resolver, resolver.AgreeOn conditions resolver' →
      compileConditions resolver policy conditions =
        compileConditions resolver' policy conditions) ∧
    (∀ resolver resolver' : Resolver,
      (∀ e, compileConditions resolver policy conditions = .error e ↔
        compileConditions resolver' policy conditions = .error e) ∧
      ((∃ filter, compileConditions resolver policy conditions = .ok filter) ↔
        ∃ filter, compileConditions resolver' policy conditions = .ok filter)) ∧
    (∀ resolver filter, compileConditions resolver policy conditions = .ok filter →
      List.Forall₂ Condition.Keeps conditions filter.entries) ∧
    (∀ table : Keyed Value, (∀ c ∈ conditions, ∀ text, c.Asks text → text ∉ table.keys) →
      compileConditions (.ofTable table) policy conditions =
        compileConditions .noop policy conditions) ∧
    ∀ (table : Keyed Value) (filter : Filter),
      compileConditions (.ofTable table) policy conditions = .ok filter →
      List.Forall₂ (Condition.ReadsFrom table) conditions filter.entries := by
  refine ⟨fun _ _ => compileConditions_agree, fun resolver resolver' => ⟨fun e => ?_, ?_⟩,
    fun resolver filter h => ?_, fun table unasked => ?_, fun table filter h => ?_⟩
  · simp only [compileConditions_eq_error_iff_violation]
  · simp only [exists_compileConditions_eq_ok_iff]
  · exact (compileConditions_eq_ok_iff.1 h).2.imp fun _ _ => Condition.keeps_of_compile
  · exact compileConditions_agree fun c hc text asks =>
      coerce_ofTable_of_notMem (unasked c hc text asks)
  · exact (compileConditions_eq_ok_iff.1 h).2.imp fun _ _ => Condition.readsFrom_of_compile

/-- A text that stands for an array is compared with the array, and the same text as a choice stays
a text. -/
theorem compileConditions_coerces_operands_only_array :
    let table : Keyed Value := [("years", .array [.int32 2026])]
    let conditions : List Condition :=
      [⟨"a", .eq, .string "years"⟩, ⟨"b", .eq, .array [.string "years"]⟩]
    ∃ filter, compileConditions (.ofTable table) .reject conditions = .ok filter ∧
      filter.entries = [[("a", .document [("$eq", .array [.int32 2026])])],
        [("b", .document [("$in", .array [.string "years"])])]] := by
  intro table conditions
  obtain ⟨-, -, keeps, -, reads⟩ := compileConditions_coerces_operands_only .reject conditions
  have compiles : ∃ filter, compileConditions (.ofTable table) .reject conditions = .ok filter :=
    exists_compileConditions_eq_ok_iff.2
      ⟨nofun, List.forall_mem_cons.2 ⟨rfl, List.forall_mem_singleton.2 rfl⟩⟩
  obtain ⟨filter, h⟩ := compiles
  obtain ⟨a, rest, hread, -, entries⟩ := List.forall₂_cons_left_iff.1 (reads table filter h)
  have keeps := keeps _ filter h
  rw [entries] at keeps
  obtain ⟨b, none, hkeep, hnone, rfl⟩ :=
    List.forall₂_cons_left_iff.1 (List.forall₂_cons.1 keeps).2
  cases List.forall₂_nil_left_iff.1 hnone
  refine ⟨filter, h, ?_⟩
  rw [entries, hread .eq "years" _ rfl rfl rfl, hkeep.choices rfl _ rfl]
  rfl

end QueryPipeline
