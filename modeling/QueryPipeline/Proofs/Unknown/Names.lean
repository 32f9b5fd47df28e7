import QueryPipeline.Filter.Basic
import QueryPipeline.Group
import QueryPipeline.Proofs.Json.Record
import QueryPipeline.Sort

/-!
# Names that are not known

A client names operators, accumulators and directions by words. A word that is none of the known
ones is kept as it was written (`Operator.ofName_eq_unknown_iff`,
`Accumulator.ofName_eq_unknown_iff`), and every operator and accumulator that is read is that of
some word (`Condition.exists_name_of_read`, `AggregationSpec.exists_name_of_read`), where a missing
word is the empty one. An unknown name is therefore the word of the client.
-/

namespace QueryPipeline

open Json

/-! ## The known names -/

/-- The names of the known operators. -/
def Operator.known : List String :=
  ["text", "Start With", "End With", "Include", "Equal", "=", "Empty", "not Empty", ">=", "<=", ">",
    "<", "!="]

/-- The names of the known accumulators. -/
def Accumulator.known : List String := ["avg", "sum", "count", "min", "max", "first"]

/-- The names of the directions. -/
def SortDirection.known : List String := ["asc", "des"]

/-- A word is kept exactly if it names no known operator. -/
theorem Operator.ofName_eq_unknown_iff {word name : String} :
    ofName word = .unknown name ↔ word ∉ known ∧ word = name := by
  unfold ofName
  split <;> simp_all [known]

/-- A word is kept exactly if it names no known accumulator. -/
theorem Accumulator.ofName_eq_unknown_iff {word name : String} :
    ofName word = .unknown name ↔ word ∉ known ∧ word = name := by
  unfold ofName
  split <;> simp_all [known]

/-- A word names no direction exactly if it is none of the known ones. -/
theorem SortDirection.ofName?_eq_none_iff {word : String} :
    ofName? word = none ↔ word ∉ known := by
  unfold ofName?
  split <;> simp_all [known]

/-! ## Names that are read -/

/-- An operator is read by its name. -/
theorem exists_name_of_readOperator {room : Nat} {node : Node} {operator : Operator}
    (h : readOperator room node = .ok operator) : ∃ word, operator = .ofName word := by
  obtain ⟨word, -, h⟩ := bind_eq_ok_iff.1 h
  exact ⟨word, (pure_eq_ok_iff.1 h).symm⟩

/-- A member of a condition leaves the operator, or writes one that is read by its name. -/
theorem ConditionDraft.named_of_run {room : Nat} {name : String} {draft next : ConditionDraft}
    {node : Node} (h : (field room name draft).run draft node = .ok next) :
    next.operator = draft.operator ∨
      ∃ operator, next.operator = some operator ∧ ∃ word, operator = .ofName word := by
  unfold field at h
  split at h
  -- The members in turn: the label, the operation and the value, each under two names, and others.
  case h_3 | h_4 =>
    obtain ⟨-, word, -, rfl⟩ := FieldStep.run_once_eq_ok_iff.1 h
    exact .inr ⟨_, rfl, word, rfl⟩
  case h_7 =>
    rw [FieldStep.eq_of_run_pass h]
    exact .inl rfl
  all_goals
    obtain ⟨-, _, -, rfl⟩ := FieldStep.run_once_eq_ok_iff.1 h
    exact .inl rfl

/-- The operator of a condition that is read is that of some word. -/
theorem Condition.exists_name_of_read {room : Nat} {node : Node} {c : Condition}
    (h : Condition.read room node = .ok c) : ∃ word, c.operator = .ofName word := by
  have missing : ∃ word, Operator.default = .ofName word := ⟨"", rfl⟩
  obtain ⟨inner, rfl⟩ := exists_room_of_readRecord h
  rcases readRecord_eq_ok_iff.1 h with ⟨items, rest, rfl, hparts, -⟩ | ⟨members, rfl, hmembers⟩
  · simp only [bind_eq_ok_iff] at hparts
    obtain ⟨⟨_, _⟩, -, ⟨operator, _⟩, hoperator, ⟨_, _⟩, -, hc⟩ := hparts
    cases pure_eq_ok_iff.1 hc
    exact Items.of_nextOr (P := fun o => ∃ word, o = .ofName word) missing
      (fun _ _ => exists_name_of_readOperator) hoperator
  · obtain ⟨draft, hdraft, hc⟩ := bind_eq_ok_iff.1 hmembers
    cases pure_eq_ok_iff.1 hc
    exact Members.getD_of_readFields ConditionDraft.operator
      (P := fun o => ∃ word, o = .ofName word) missing
      (fun _ _ _ _ => ConditionDraft.named_of_run) hdraft rfl

/-- An accumulator is read by its name. -/
theorem exists_name_of_readAccumulator {room : Nat} {node : Node} {accumulator : Accumulator}
    (h : readAccumulator room node = .ok accumulator) : ∃ word, accumulator = .ofName word := by
  obtain ⟨word, -, h⟩ := bind_eq_ok_iff.1 h
  exact ⟨word, (pure_eq_ok_iff.1 h).symm⟩

/-- A member of an output leaves the accumulator, or writes one that is read by its name. -/
theorem AggregatorDraft.named_of_run {room : Nat} {name : String} {draft next : AggregatorDraft}
    {node : Node} (h : (step room name draft).run draft node = .ok next) :
    next.accumulator = draft.accumulator ∨
      ∃ accumulator, next.accumulator = some accumulator ∧
        ∃ word, accumulator = .ofName word := by
  unfold step at h
  split at h
  · obtain ⟨-, _, -, rfl⟩ := FieldStep.run_once_eq_ok_iff.1 h
    exact .inl rfl
  · obtain ⟨-, accumulator, hread, rfl⟩ := FieldStep.run_once_eq_ok_iff.1 h
    exact .inr ⟨accumulator, rfl, exists_name_of_readAccumulator hread⟩
  · rw [FieldStep.eq_of_run_pass h]
    exact .inl rfl

/-- The accumulator of an output that is read is that of some word. -/
theorem AggregatorSpec.exists_name_of_read {room : Nat} {node : Node} {output : AggregatorSpec}
    (h : AggregatorSpec.read room node = .ok output) :
    ∃ word, output.accumulator = .ofName word := by
  have missing : ∃ word, Accumulator.default = .ofName word := ⟨"", rfl⟩
  obtain ⟨inner, rfl⟩ := exists_room_of_readRecord h
  rcases readRecord_eq_ok_iff.1 h with ⟨items, rest, rfl, hparts, -⟩ | ⟨members, rfl, hmembers⟩
  · simp only [bind_eq_ok_iff] at hparts
    obtain ⟨⟨_, _⟩, -, ⟨accumulator, _⟩, haccumulator, ho⟩ := hparts
    cases pure_eq_ok_iff.1 ho
    exact Items.of_nextOr (P := fun a => ∃ word, a = .ofName word) missing
      (fun _ _ => exists_name_of_readAccumulator) haccumulator
  · obtain ⟨draft, hdraft, ho⟩ := bind_eq_ok_iff.1 hmembers
    cases pure_eq_ok_iff.1 ho
    exact Members.getD_of_readFields AggregatorDraft.accumulator
      (P := fun a => ∃ word, a = .ofName word) missing
      (fun _ _ _ _ => AggregatorDraft.named_of_run) hdraft rfl

/-- The accumulators of outputs that are read are those of some words. -/
theorem exists_name_of_readAggregators {room : Nat} {node : Node} {outputs : List AggregatorSpec}
    (h : readAggregators room node = .ok outputs) :
    ∀ output ∈ outputs, ∃ word, output.accumulator = .ofName word := by
  obtain ⟨given, hgiven, h⟩ := bind_eq_ok_iff.1 h
  cases pure_eq_ok_iff.1 h
  cases given with
  | none => exact fun _ h => absurd h List.not_mem_nil
  | some outputs =>
    obtain ⟨inner, items, -, -, hitems⟩ := readList_eq_ok_iff.1 (readOptional_eq_some hgiven)
    exact Items.forall_mem_of_readAll (fun _ _ => AggregatorSpec.exists_name_of_read) hitems

/-- A member of a grouping leaves the outputs, or writes some that are read by their names. -/
theorem AggregationDraft.named_of_run {room : Nat} {name : String} {draft next : AggregationDraft}
    {node : Node} (h : (step room name draft).run draft node = .ok next) :
    next.aggregators = draft.aggregators ∨
      ∃ outputs, next.aggregators = some outputs ∧
        ∀ output ∈ outputs, ∃ word, output.accumulator = .ofName word := by
  unfold step at h
  split at h
  case h_3 =>
    obtain ⟨-, outputs, hread, rfl⟩ := FieldStep.run_once_eq_ok_iff.1 h
    exact .inr ⟨outputs, rfl, exists_name_of_readAggregators hread⟩
  case h_4 =>
    rw [FieldStep.eq_of_run_pass h]
    exact .inl rfl
  all_goals
    obtain ⟨-, _, -, rfl⟩ := FieldStep.run_once_eq_ok_iff.1 h
    exact .inl rfl

/-- The accumulators of a grouping that is read are those of some words. -/
theorem AggregationSpec.exists_name_of_read {room : Nat} {node : Node} {spec : AggregationSpec}
    (h : AggregationSpec.read room node = .ok spec) :
    ∀ output ∈ spec.aggregators, ∃ word, output.accumulator = .ofName word := by
  have missing : ∀ output ∈ ([] : List AggregatorSpec),
      ∃ word, output.accumulator = .ofName word := fun _ h => absurd h List.not_mem_nil
  obtain ⟨inner, rfl⟩ := exists_room_of_readRecord h
  rcases readRecord_eq_ok_iff.1 h with ⟨items, rest, rfl, hparts, -⟩ | ⟨members, rfl, hmembers⟩
  · simp only [bind_eq_ok_iff] at hparts
    obtain ⟨⟨_, _⟩, -, ⟨_, _⟩, -, ⟨outputs, _⟩, houtputs, hspec⟩ := hparts
    cases pure_eq_ok_iff.1 hspec
    exact Items.of_nextOr (P := fun outputs : List AggregatorSpec => ∀ output ∈ outputs,
      ∃ word, output.accumulator = .ofName word) missing
      (fun _ _ => exists_name_of_readAggregators) houtputs
  · obtain ⟨draft, hdraft, hspec⟩ := bind_eq_ok_iff.1 hmembers
    cases pure_eq_ok_iff.1 hspec
    exact Members.getD_of_readFields AggregationDraft.aggregators
      (P := fun outputs : List AggregatorSpec => ∀ output ∈ outputs,
        ∃ word, output.accumulator = .ofName word) missing
      (fun _ _ _ _ => AggregationDraft.named_of_run) hdraft rfl

end QueryPipeline
