import QueryPipeline.Filter.Basic
import QueryPipeline.Proofs.Outcome
import Mathlib.Logic.ExistsUnique

/-!
# The forms of a filter entry

An `Entry` is what a condition may contribute to a query: nothing that constrains, a search, or a
predicate under a plain label. `Condition.Yields` says which entry a condition contributes, operator
by operator, and `Condition.compile_eq_ok_iff` that compiling a condition succeeds exactly if it
yields an entry, with the document of that entry as the result. A document is the document of one
entry at most (`Entry.toDocument_injective`), so the form of a compiled entry is determined.
-/

namespace QueryPipeline

/-! ## Entries and their documents -/

/-- A name that a query may use as a key of a record. -/
structure PlainName where
  name : String
  plain : IsPlainName name

/-- The operators of the store that compare a field with an operand. -/
inductive Comparator where
  | eq
  /-- The field is one of the elements of the operand. -/
  | oneOf
  | gte
  | lte
  | gt
  | lt
  | ne
deriving DecidableEq, Repr

/-- The key that a comparing operator has in the store. -/
def Comparator.key : Comparator → String
  | .eq => "$eq"
  | .oneOf => "$in"
  | .gte => "$gte"
  | .lte => "$lte"
  | .gt => "$gt"
  | .lt => "$lt"
  | .ne => "$ne"

/-- What an entry asks of the field that its label names. -/
inductive Predicate where
  | pattern (text : String)
  | presence (present : Bool)
  | compare (comparator : Comparator) (operand : Value)

/-- A predicate as a document of the store. -/
def Predicate.toDocument : Predicate → Document
  | .pattern text => [("$regex", .string text), ("$options", .string "i")]
  | .presence present => [("$exists", .boolean present)]
  | .compare comparator operand => [(comparator.key, operand)]

/-- What a condition contributes to a query. -/
inductive Entry where
  /-- Every record is admitted. -/
  | everything
  | search (text : String)
  | labelled (label : PlainName) (predicate : Predicate)

/-- An entry as a document of the store. -/
def Entry.toDocument : Entry → Document
  | .everything => []
  | .search text => [("$text", .document [("$search", .string text)])]
  | .labelled label predicate => [(label.name, .document predicate.toDocument)]

/-- No operator of the store is a plain name. -/
theorem PlainName.name_ne (label : PlainName) {key : String} (h : ¬ IsPlainName key) :
    label.name ≠ key :=
  fun e => h (e ▸ label.plain)

/-- Two comparing operators with the same key are the same. -/
theorem Comparator.key_injective : Function.Injective Comparator.key := by
  intro a b h
  cases a <;> cases b <;> first | rfl | exact absurd h (by decide)

/-- The key of a comparing operator is no key of another predicate. -/
theorem Comparator.key_ne_exists (comparator : Comparator) : comparator.key ≠ "$exists" := by
  cases comparator <;> decide

/-- The document of a predicate determines the predicate. -/
theorem Predicate.toDocument_injective : Function.Injective Predicate.toDocument := by
  intro p q h
  cases p with
  | pattern p =>
    cases q with
    | pattern q => simpa [toDocument] using h
    | presence | compare => simp [toDocument] at h
  | presence p =>
    cases q with
    | pattern => simp [toDocument] at h
    | presence q => simpa [toDocument] using h
    | compare k =>
      simp only [toDocument, List.cons.injEq, Prod.mk.injEq] at h
      exact absurd h.1.1.symm k.key_ne_exists
  | compare k operand =>
    cases q with
    | pattern => simp [toDocument] at h
    | presence =>
      simp only [toDocument, List.cons.injEq, Prod.mk.injEq] at h
      exact absurd h.1.1 k.key_ne_exists
    | compare k' operand' =>
      simp only [toDocument, List.cons.injEq, Prod.mk.injEq, and_true] at h
      rw [Comparator.key_injective h.1, h.2]

/-- The document of an entry determines the entry. -/
theorem Entry.toDocument_injective : Function.Injective Entry.toDocument := by
  intro e e' h
  cases e with
  | everything =>
    cases e' with
    | everything => rfl
    | search | labelled => simp [toDocument] at h
  | search text =>
    cases e' with
    | everything => simp [toDocument] at h
    | search text' => simpa [toDocument] using h
    | labelled label =>
      simp only [toDocument, List.cons.injEq, Prod.mk.injEq] at h
      exact absurd h.1.1.symm (label.name_ne (by decide))
  | labelled label p =>
    cases e' with
    | everything => simp [toDocument] at h
    | search =>
      simp only [toDocument, List.cons.injEq, Prod.mk.injEq] at h
      exact absurd h.1.1 (label.name_ne (by decide))
    | labelled label' q =>
      obtain ⟨name, _⟩ := label
      obtain ⟨name', _⟩ := label'
      simp only [toDocument, List.cons.injEq, Prod.mk.injEq, Value.document.injEq, and_true] at h
      obtain ⟨rfl, hp⟩ := h
      rw [Predicate.toDocument_injective hp]

/-! ## Which entry a condition yields -/

/-- The pattern that an operator makes of a text. -/
def Operator.pattern? : Operator → Option (String → String)
  | .startsWith => some Pattern.beginning
  | .endsWith => some Pattern.ending
  | .contains => some Pattern.within
  | _ => none

/-- Whether an operator asks for a field or for its absence. -/
def Operator.presence? : Operator → Option Bool
  | .absent => some false
  | .present => some true
  | _ => none

/-- The comparing operator of the store for an operator that coerces its value. -/
def Operator.comparator? : Operator → Option Comparator
  | .eq => some .eq
  | .gte => some .gte
  | .lte => some .lte
  | .gt => some .gt
  | .lt => some .lt
  | .ne => some .ne
  | _ => none

/-- The entry that a condition yields. Apart from a search and a pattern, the client's value occurs
in it as an operand only, coerced where the operator coerces. -/
inductive Condition.Yields (resolver : Resolver) (policy : UnknownPolicy) (c : Condition) :
    Entry → Prop
  | ignored {name : String} (operator : c.operator = .unknown name) (lenient : policy = .ignore) :
      c.Yields resolver policy .everything
  | search {text : String} (operator : c.operator = .text) (value : c.value = .string text) :
      c.Yields resolver policy (.search text)
  | pattern {label : PlainName} {text : String} {build : String → String}
      (operator : c.operator.pattern? = some build) (value : c.value = .string text)
      (own : label.name = c.label) :
      c.Yields resolver policy (.labelled label (.pattern (build text)))
  | presence {label : PlainName} {present : Bool}
      (operator : c.operator.presence? = some present) (own : label.name = c.label) :
      c.Yields resolver policy (.labelled label (.presence present))
  /-- The value as the client wrote it. -/
  | verbatim {label : PlainName} (operator : c.operator = .equal) (own : label.name = c.label) :
      c.Yields resolver policy (.labelled label (.compare .eq c.value))
  /-- An array is a list of choices, and the array itself is the operand. -/
  | choice {label : PlainName} {items : List Value} (operator : c.operator = .eq)
      (value : c.value = .array items) (own : label.name = c.label) :
      c.Yields resolver policy (.labelled label (.compare .oneOf (.array items)))
  | coerced {label : PlainName} {comparator : Comparator}
      (operator : c.operator.comparator? = some comparator)
      (single : c.operator = .eq → ∀ items, c.value ≠ .array items) (own : label.name = c.label) :
      c.Yields resolver policy (.labelled label (.compare comparator (coerce resolver c.value)))

/-! ## Compiling a condition -/

section
variable {resolver : Resolver} {policy : UnknownPolicy} {c : Condition}

/-- A coerced value is the value itself, or what its text stands for. -/
theorem coerce_eq_or (resolver : Resolver) (value : Value) :
    coerce resolver value = value ∨
      ∃ text, value = .string text ∧ coerce resolver value = resolver.resolve text := by
  cases value with
  | string text =>
    cases h : resolver.classify text with
    | functionRef => exact .inr ⟨text, rfl, by simp [coerce, h]⟩
    | plainString | other => exact .inl (by simp [coerce, h])
  | _ => exact .inl rfl

/-- The value of a condition is read as a text exactly if it is one. -/
theorem Condition.textValue_eq_ok_iff {text : String} :
    c.textValue = .ok text ↔ c.value = .string text := by
  unfold textValue
  split
  · next h => simp [h]
  · next h => simp only [invalid, reduceCtorEq, false_iff]; exact h text

/-- A predicate has an entry exactly under a label that is plain. -/
theorem Condition.labelled_eq_ok_iff {predicate : Value} {d : Document} :
    c.labelled predicate = .ok d ↔
      ∃ label : PlainName, label.name = c.label ∧ [(label.name, predicate)] = d := by
  unfold labelled
  split
  · next fault h =>
    simp only [invalid, reduceCtorEq, false_iff]
    rintro ⟨⟨name, plain⟩, rfl, -⟩
    exact absurd (plain.symm.trans h) (by simp)
  · next h =>
    constructor
    · intro hd
      exact ⟨⟨c.label, h⟩, rfl, Except.ok.inj hd⟩
    · rintro ⟨label, own, rfl⟩
      rw [own]
      rfl

/-- A pattern has an entry exactly under a plain label and for a text. -/
theorem Condition.matched_eq_ok_iff {build : String → String} {d : Document} :
    c.matched build = .ok d ↔ ∃ (label : PlainName) (text : String), c.value = .string text ∧
      label.name = c.label ∧ (Entry.labelled label (.pattern (build text))).toDocument = d := by
  simp only [matched, bind_eq_ok_iff, textValue_eq_ok_iff, labelled_eq_ok_iff]
  constructor
  · rintro ⟨text, value, label, own, rfl⟩
    exact ⟨label, text, value, own, rfl⟩
  · rintro ⟨label, text, value, own, rfl⟩
    exact ⟨text, value, label, own, rfl⟩

/-- An operator that matches a pattern compiles to it. -/
theorem Condition.compile_of_pattern? {build : String → String}
    (h : c.operator.pattern? = some build) : c.compile resolver policy = c.matched build := by
  unfold compile
  cases operator : c.operator <;> simp_all [Operator.pattern?]

/-- An operator that asks for a field compiles to its predicate. -/
theorem Condition.compile_of_presence? {present : Bool}
    (h : c.operator.presence? = some present) :
    c.compile resolver policy = c.labelled (comparison "$exists" (.boolean present)) := by
  unfold compile
  cases operator : c.operator <;> simp_all [Operator.presence?]

/-- The operator `=` compares with the coerced value if that is no list of choices. -/
theorem Condition.equality_of_not_array {value : Value} (h : ∀ items, value ≠ .array items) :
    equality resolver value = comparison "$eq" (coerce resolver value) := by
  unfold equality
  split
  · next items => exact absurd rfl (h items)
  · rfl

/-- An operator that coerces its value compiles to a comparison with the coerced value, unless the
operator is `=` and the value a list of choices. -/
theorem Condition.compile_of_comparator? {comparator : Comparator}
    (h : c.operator.comparator? = some comparator)
    (single : c.operator = .eq → ∀ items, c.value ≠ .array items) :
    c.compile resolver policy =
      c.labelled (comparison comparator.key (coerce resolver c.value)) := by
  unfold compile
  cases operator : c.operator with
  | eq =>
    rw [operator] at h
    cases h
    exact congrArg c.labelled (equality_of_not_array (single operator))
  | gte | lte | gt | lt | ne => rw [operator] at h; cases h; rfl
  | _ => rw [operator] at h; cases h

/-- A condition that yields an entry compiles to its document. -/
theorem Condition.Yields.compile_eq {entry : Entry} (h : c.Yields resolver policy entry) :
    c.compile resolver policy = .ok entry.toDocument := by
  cases h with
  | ignored operator lenient => simp [compile, operator, lenient, Entry.toDocument, Document.empty]
  | search operator value =>
    simp only [compile, operator]
    exact bind_eq_ok_iff.2 ⟨_, textValue_eq_ok_iff.2 value, rfl⟩
  | pattern operator value own =>
    rw [compile_of_pattern? operator]
    exact matched_eq_ok_iff.2 ⟨_, _, value, own, rfl⟩
  | presence operator own =>
    rw [compile_of_presence? operator]
    exact labelled_eq_ok_iff.2 ⟨_, own, rfl⟩
  | verbatim operator own =>
    simp only [compile, operator]
    exact labelled_eq_ok_iff.2 ⟨_, own, rfl⟩
  | choice operator value own =>
    simp only [compile, operator, value]
    exact labelled_eq_ok_iff.2 ⟨_, own, rfl⟩
  | coerced operator single own =>
    rw [compile_of_comparator? operator single]
    exact labelled_eq_ok_iff.2 ⟨_, own, rfl⟩

/-- The label of an entry that a condition yields is the condition's own. -/
theorem Condition.Yields.label_eq {label : PlainName} {predicate : Predicate}
    (h : c.Yields resolver policy (.labelled label predicate)) : label.name = c.label := by
  cases h <;> assumption

/-- An operand of a comparison is the client's own value, or what the resolver returns for the text
that is this value. -/
theorem Condition.Yields.operand_eq {label : PlainName} {comparator : Comparator} {operand : Value}
    (h : c.Yields resolver policy (.labelled label (.compare comparator operand))) :
    operand = c.value ∨ ∃ text, c.value = .string text ∧ operand = resolver.resolve text := by
  cases h with
  | verbatim => exact .inl rfl
  | choice _ value => exact .inl value.symm
  | coerced => exact coerce_eq_or resolver c.value

/-- The operand of a list of choices is the client's own array. -/
theorem Condition.Yields.choices_eq {label : PlainName} {operand : Value}
    (h : c.Yields resolver policy (.labelled label (.compare .oneOf operand))) :
    operand = c.value ∧ ∃ items, c.value = .array items := by
  cases h with
  | choice _ value => exact ⟨value.symm, _, value⟩
  | coerced operator =>
    unfold Operator.comparator? at operator
    split at operator <;> cases operator

/-- A condition that compiles yields an entry with that document. -/
theorem Condition.exists_yields_of_compile {d : Document}
    (h : c.compile resolver policy = .ok d) :
    ∃ entry, c.Yields resolver policy entry ∧ entry.toDocument = d := by
  cases operator : c.operator with
  | text =>
    simp only [compile, operator, bind_eq_ok_iff, textValue_eq_ok_iff, pure_eq_ok_iff] at h
    obtain ⟨text, value, rfl⟩ := h
    exact ⟨_, .search operator value, rfl⟩
  | startsWith | endsWith | contains =>
    simp only [compile, operator, matched_eq_ok_iff] at h
    obtain ⟨label, text, value, own, rfl⟩ := h
    exact ⟨_, .pattern (by rw [operator]; rfl) value own, rfl⟩
  | equal =>
    simp only [compile, operator, labelled_eq_ok_iff] at h
    obtain ⟨label, own, rfl⟩ := h
    exact ⟨_, .verbatim operator own, rfl⟩
  | absent | present =>
    simp only [compile, operator, labelled_eq_ok_iff] at h
    obtain ⟨label, own, rfl⟩ := h
    exact ⟨_, .presence (by rw [operator]; rfl) own, rfl⟩
  | eq =>
    simp only [compile, operator, labelled_eq_ok_iff] at h
    obtain ⟨label, own, rfl⟩ := h
    by_cases choices : ∃ items, c.value = .array items
    · obtain ⟨items, value⟩ := choices
      exact ⟨_, .choice operator value own, by rw [value]; rfl⟩
    · have single : ∀ items, c.value ≠ .array items := fun items e => choices ⟨items, e⟩
      refine ⟨_, .coerced (by rw [operator]; rfl) (fun _ => single) own, ?_⟩
      rw [equality_of_not_array single]
      rfl
  | gte | lte | gt | lt | ne =>
    simp only [compile, operator, labelled_eq_ok_iff] at h
    obtain ⟨label, own, rfl⟩ := h
    exact ⟨_, .coerced (by rw [operator]; rfl) (fun e => absurd (operator.symm.trans e) (by simp))
      own, rfl⟩
  | unknown name =>
    cases policy with
    | reject => simp [compile, operator] at h
    | ignore =>
      simp only [compile, operator, Except.ok.injEq] at h
      exact ⟨_, .ignored operator rfl, h⟩

/-- A condition compiles exactly to the documents of the entries that it yields. -/
theorem Condition.compile_eq_ok_iff {d : Document} :
    c.compile resolver policy = .ok d ↔
      ∃ entry, c.Yields resolver policy entry ∧ entry.toDocument = d := by
  constructor
  · exact exists_yields_of_compile
  · rintro ⟨entry, h, rfl⟩
    exact h.compile_eq

/-- The entry of a condition that compiles is determined. -/
theorem Condition.existsUnique_yields {d : Document} (h : c.compile resolver policy = .ok d) :
    ∃! entry, c.Yields resolver policy entry ∧ entry.toDocument = d := by
  obtain ⟨entry, hy, he⟩ := compile_eq_ok_iff.1 h
  exact ⟨entry, ⟨hy, he⟩, fun e' h' => Entry.toDocument_injective (h'.2.trans he.symm)⟩

/-- Conditions compile to a filter exactly if there is one at least and each of them compiles, to
the entry at its place. -/
theorem compileConditions_eq_ok_iff {conditions : List Condition} {filter : Filter} :
    compileConditions resolver policy conditions = .ok filter ↔
      conditions ≠ [] ∧
        List.Forall₂ (fun c d => c.compile resolver policy = .ok d) conditions filter.entries := by
  cases conditions with
  | nil => simp [compileConditions]
  | cons c rest =>
    simp only [compileConditions, bind_eq_ok_iff, mapM_eq_ok_iff, pure_eq_ok_iff, ne_eq,
      reduceCtorEq, not_false_eq_true, true_and]
    constructor
    · rintro ⟨entries, h, rfl⟩
      exact h
    · intro h
      exact ⟨filter.entries, h, rfl⟩

end

end QueryPipeline
