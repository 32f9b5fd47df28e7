import Mathlib
import QueryPipeline.Proofs.Assembly
import QueryPipeline.Proofs.Filter.Acceptance
import QueryPipeline.Proofs.Json.Fields
import QueryPipeline.Proofs.Value.Wire

/-!
# The spellings of a filter

A filter is an array of objects, one for each term. `Term.WrittenBy` says which objects write a
term: each part stands under one of its two names, or is left out where it is what a missing part
stands for, and members of other names may stand anywhere. An object that writes a term is read as
the term's condition (`Condition.read_of_writtenBy`), so a text that spells such objects compiles as
the conditions do, whatever its spaces and escapes are. An object that gives a part twice is not
read (`Condition.length_valuesOf_le`). `compileFilter_spelled` puts these together.
-/

namespace QueryPipeline

open Json

/-! ## The parts of a condition -/

/-- A part of a condition. -/
inductive ConditionPart where
  | label
  | operation
  | value

namespace ConditionPart

/-- The names of the members that write the part. -/
def names : ConditionPart → List String
  | label => ["label", "Label"]
  | operation => ["operation", "Operation"]
  | value => ["condition", "Condition"]

/-- What the part is in a condition. -/
abbrev Held : ConditionPart → Type
  | label => String
  | operation => Operator
  | value => Value

/-- The reader of the part. -/
def reader (room : Nat) : (part : ConditionPart) → Node → Except ReadError part.Held
  | label => readText room
  | operation => readOperator room
  | value => readValue room

/-- What a draft holds of the part. -/
def ofDraft : (part : ConditionPart) → ConditionDraft → Option part.Held
  | label => ConditionDraft.label
  | operation => ConditionDraft.operator
  | value => ConditionDraft.value

/-- What a missing part stands for. -/
def default : (part : ConditionPart) → part.Held
  | label => ""
  | operation => .default
  | value => .null

/-- A draft with the part given. -/
def fill : (part : ConditionPart) → part.Held → ConditionDraft → ConditionDraft
  | label, text, draft => { draft with label := some text }
  | operation, operator, draft => { draft with operator := some operator }
  | value, v, draft => { draft with value := some v }

end ConditionPart

namespace ConditionDraft

variable {room : Nat} {part : ConditionPart} {name : String} {node : Node}
  {draft draft' : ConditionDraft}

/-- A member of a part's names is read where the part is not given, and gives it. -/
theorem run_field_eq_ok_iff (h : name ∈ part.names) :
    (field room name draft).run draft node = .ok draft' ↔
      part.ofDraft draft = none ∧ ∃ held, part.reader room node = .ok held ∧
        part.fill held draft = draft' := by
  cases part with
  | label =>
    obtain rfl | rfl : name = "label" ∨ name = "Label" := by simpa [ConditionPart.names] using h
    all_goals exact FieldStep.run_once_eq_ok_iff
  | operation =>
    obtain rfl | rfl : name = "operation" ∨ name = "Operation" := by
      simpa [ConditionPart.names] using h
    all_goals
      refine FieldStep.run_once_eq_ok_iff.trans (and_congr_right fun _ => ?_)
      -- The text is read here and made an operator where it is written.
      simp only [ConditionPart.reader, readOperator, bind_eq_ok_iff, pure_eq_ok_iff]
      simp [ConditionPart.fill]
  | value =>
    obtain rfl | rfl : name = "condition" ∨ name = "Condition" := by
      simpa [ConditionPart.names] using h
    all_goals exact FieldStep.run_once_eq_ok_iff

/-- A member of other names leaves a part as it was. -/
theorem ofDraft_of_run_field (h : name ∉ part.names)
    (hrun : (field room name draft).run draft node = .ok draft') :
    part.ofDraft draft' = part.ofDraft draft := by
  unfold field at hrun
  split at hrun <;> cases part <;> first
    | exact absurd (by decide) h
    | rw [FieldStep.eq_of_run_pass hrun]
    | obtain ⟨-, _, -, rfl⟩ := FieldStep.run_once_eq_ok_iff.1 hrun
      rfl

/-- A condition is a record of its parts. -/
theorem isRecord (room : Nat) :
    IsRecord (field room) ConditionPart.names (ConditionPart.reader room)
      ConditionPart.ofDraft where
  disjoint {part other name} h h' := by
    cases part <;> cases other <;> first
      | rfl
      | simp only [ConditionPart.names, List.mem_cons, List.not_mem_nil, or_false] at h h'
        rcases h with rfl | rfl <;> simp at h'
  own {part name draft node draft'} h hrun := by
    obtain ⟨free, held, read, rfl⟩ := (run_field_eq_ok_iff h).1 hrun
    exact ⟨free, held, read, by cases part <;> rfl⟩
  takes h free read := ⟨_, (run_field_eq_ok_iff h).2 ⟨free, _, read, rfl⟩⟩
  other := ofDraft_of_run_field
  passes {name draft} h := by
    have others := And.intro (h .label) (And.intro (h .operation) (h .value))
    unfold field
    split <;> first
      | rfl
      | exact absurd others (by decide)

end ConditionDraft

/-! ## Objects that write a term -/

namespace Term

/-- The tree of a part of a term. -/
def node (t : Term) : ConditionPart → Node
  | .label => .ofText t.label
  | .operation => .ofText t.operation
  | .value => t.value.node

/-- What a part of a term is in its condition. -/
def held (t : Term) : (part : ConditionPart) → part.Held
  | .label => t.label
  | .operation => .ofName t.operation
  | .value => t.value

/-- The members of an object that writes a term: each part is given once, under one of its names,
or it is left out where it is what a missing part stands for. -/
def WrittenBy (t : Term) (members : List (String × Node)) : Prop :=
  ∀ part : ConditionPart, valuesOf part.names members = [t.node part] ∨
    (valuesOf part.names members = [] ∧ t.held part = part.default)

/-- A term whose value is of the kinds that JSON has and nests no deeper than a reader enters. -/
structure IsWire (t : Term) (room : Nat) : Prop where
  kinds : t.value.Throughout Value.IsWire
  deep : t.value.node.depth ≤ room

end Term

/-- The tree of a part of a term is read as the part. -/
theorem ConditionPart.reader_node {t : Term} {room : Nat} (wire : t.IsWire room)
    (part : ConditionPart) : part.reader room (t.node part) = .ok (t.held part) := by
  cases part with
  | label | operation => rfl
  | value => exact readValue_of_isWire wire.kinds wire.deep

/-- The condition of a draft has each part that is given, and what a missing part stands for. -/
theorem ConditionDraft.condition_eq {t : Term} {draft : ConditionDraft}
    (h : ∀ part : ConditionPart, (part.ofDraft draft).getD part.default = t.held part) :
    draft.condition = t.condition := by
  have label : draft.label.getD "" = t.label := h .label
  have operator : draft.operator.getD .default = .ofName t.operation := h .operation
  have value : draft.value.getD .null = t.value := h .value
  rw [condition, label, operator, value, Term.condition]

namespace Condition

/-- An object that writes a term is read as the term's condition. -/
theorem read_of_writtenBy {t : Term} {members : List (String × Node)} {room : Nat}
    (wire : t.IsWire room) (written : t.WrittenBy members)
    (passed : ∀ member ∈ members, member.2.pass = .ok ()) :
    Condition.read (room + 1) (.object (.ofList members)) = .ok t.condition := by
  have empty (part : ConditionPart) : part.ofDraft .empty = none := by
    cases part <;> rfl
  have supplied (part : ConditionPart) :
      Supplies (part.reader room) part.names part.default members (t.held part) := by
    rcases written part with given | omitted
    · exact .inl ⟨_, given, part.reader_node wire⟩
    · exact .inr omitted
  obtain ⟨draft, hread, hdraft⟩ :=
    ((ConditionDraft.isRecord room).exists_readFields_iff empty passed).2 supplied
  refine readRecord_eq_ok_iff.2 (.inr ⟨_, rfl, bind_eq_ok_iff.2 ⟨draft, hread, ?_⟩⟩)
  exact congrArg Except.ok (ConditionDraft.condition_eq hdraft)

/-- An object that is read as a condition gives each part once at most. -/
theorem length_valuesOf_le {members : List (String × Node)} {room : Nat} {c : Condition}
    (h : Condition.read (room + 1) (.object (.ofList members)) = .ok c) (part : ConditionPart) :
    (valuesOf part.names members).length ≤ 1 := by
  rcases readRecord_eq_ok_iff.1 h with ⟨_, _, ⟨⟩, -, -⟩ | ⟨_, ⟨⟩, hmembers⟩
  obtain ⟨draft, hread, -⟩ := bind_eq_ok_iff.1 hmembers
  exact ((ConditionDraft.isRecord room).fills_of_readFields hread part).length_valuesOf_le

end Condition

/-! ## Texts of filters -/

/-- The tree of an array of objects. -/
def objectsNode (objects : List (List (String × Node))) : Node :=
  .array (.ofList (objects.map fun members => .object (.ofList members)))

/-- A text of objects that write terms compiles as the conditions of the terms, for every order of
the members, every name of a part, and all spaces and escapes. A text of objects one of which gives
a part twice is not read as a filter. -/
theorem compileFilter_spelled (resolver : Resolver) (policy : UnknownPolicy) (text : String)
    (objects : List (List (String × Node))) (spelled : Spells text (objectsNode objects)) :
    (∀ terms : List Term, (∀ t ∈ terms, t.IsWire (maxDepth - 2)) →
      List.Forall₂ Term.WrittenBy terms objects →
      compileFilter resolver policy text =
        compileConditions resolver policy (terms.map Term.condition)) ∧
    ∀ members ∈ objects, ∀ part : ConditionPart, 2 ≤ (valuesOf part.names members).length →
      ∃ cause, compileFilter resolver policy text = .error (.unreadable .filter cause) := by
  have hparse : parse (readList Condition.read) text = (Items.ofList (objects.map fun members =>
      .object (.ofList members))).readAll (Condition.read (maxDepth - 1)) := spelled.parse_eq _
  have passed : ∀ members ∈ objects, ∀ member ∈ members, member.2.pass = .ok () := by
    intro members hmembers
    have pass := Items.pass_ofList_iff.1 (spells_iff.1 spelled).2 _ (List.mem_map_of_mem hmembers)
    exact Members.pass_ofList_iff.1 pass
  rw [compileFilter, hparse]
  constructor
  · intro terms wire written
    have hread : (Items.ofList (objects.map fun members => .object (.ofList members))).readAll
        (Condition.read (maxDepth - 1)) = .ok (terms.map Term.condition) := by
      rw [Items.readAll_ofList_eq_ok_iff, List.forall₂_map_left_iff, List.forall₂_map_right_iff]
      obtain ⟨length, writes⟩ := List.forall₂_iff_zip.1 written
      refine List.Forall₂.flip (List.forall₂_iff_zip.2 ⟨length, fun {t members} hmem => ?_⟩)
      obtain ⟨ht, hmembers⟩ := List.of_mem_zip hmem
      exact Condition.read_of_writtenBy (wire t ht) (writes hmem) (passed members hmembers)
    rw [hread]
    rfl
  · intro members hmembers part twice
    cases hread : (Items.ofList (objects.map fun members => .object (.ofList members))).readAll
        (Condition.read (maxDepth - 1)) with
    | error cause => exact ⟨cause, rfl⟩
    | ok conditions =>
      have hobject : Node.object (.ofList members) ∈
        objects.map fun members => .object (.ofList members) := List.mem_map_of_mem hmembers
      obtain ⟨c, -, hc⟩ :=
        exists_mem_left_of_forall₂ (Items.readAll_ofList_eq_ok_iff.1 hread).flip hobject
      have most := Condition.length_valuesOf_le hc part
      omega

/-- A term under names of both kinds, with a member of another name, an escape and a document whose
key is one of the store's, before a term of which nothing is given; and a label that is given under
both of its names. -/
theorem compileFilter_spelled_mixed_names :
    let text := "[\x7b\"Condition\":\x7b\"$gt\":[-1]\x7d,\"x\":1e999," ++
      "\"operation\":\"Equal\",\"label\":\"\\u0061\"\x7d, \x7b\x7d]"
    let twice := "[\x7b\"label\":\"a\",\"Label\":\"a\"\x7d]"
    let terms : List Term :=
      [⟨"a", "Equal", .document [("$gt", .array [.int64 (-1)])]⟩, ⟨"", "", .null⟩]
    compileFilter .noop .ignore text =
        compileConditions .noop .ignore (terms.map Term.condition) ∧
      compileConditions .noop .ignore (terms.map Term.condition) = .ok
        ⟨[[("a", .document [("$eq", .document [("$gt", .array [.int64 (-1)])])])], []]⟩ ∧
      ∃ cause, compileFilter .noop .ignore twice = .error (.unreadable .filter cause) := by
  intro text twice terms
  let value : Value := .document [("$gt", .array [.int64 (-1)])]
  let given : List (String × Node) := [("Condition", value.node),
    ("x", .number (.written ⟨false, ['1'], [], some (false, ['9', '9', '9'])⟩)),
    ("operation", .ofText "Equal"), ("label", .ofText "a")]
  have htext : Spells text (objectsNode [given, []]) := by
    set_option maxRecDepth 2048 in
    exact spells_iff.2 ⟨by cbv, rfl⟩
  have htwice : Spells twice (objectsNode [[("label", .ofText "a"), ("Label", .ofText "a")]]) :=
    spells_iff.2 ⟨by cbv, rfl⟩
  have kinds : value.Throughout Value.IsWire :=
    ⟨⟨by decide, by decide⟩, ⟨trivial, .inl (by decide), trivial⟩, trivial⟩
  have wire : ∀ t ∈ terms, t.IsWire (maxDepth - 2) :=
    List.forall_mem_cons.2 ⟨⟨kinds, by decide⟩,
      List.forall_mem_singleton.2 ⟨trivial, by decide⟩⟩
  have written : List.Forall₂ Term.WrittenBy terms [given, []] := by
    refine .cons (fun part => ?_) (.cons (fun part => ?_) .nil)
    · cases part <;> exact .inl rfl
    · cases part <;> exact .inr ⟨rfl, rfl⟩
  exact ⟨(compileFilter_spelled .noop .ignore text _ htext).1 terms wire written, rfl,
    (compileFilter_spelled .noop .ignore twice _ htwice).2 _ (.head _) .label (Nat.le_refl 2)⟩

end QueryPipeline
