import Mathlib
import QueryPipeline.Options
import QueryPipeline.Proofs.Json.Fields
import QueryPipeline.Proofs.Json.Quantity

/-!
# Options that are saved and read again

Options are read from an object with one member for each part. `CompilerOptions.WrittenBy` says
which objects write which options: a part is given once, or it is left out and as it is where
nothing is configured; members of other names may stand anywhere. These are the objects that options
are read from (`CompilerOptions.parse_eq_ok_iff_writtenBy`): of a text a policy is read where its
name stands (`readPolicy_eq_ok_iff`), and a page size where the digits of a number of 64 bits do
(`readInt64_eq_ok_iff`). The text that options are saved as is that of such an object.
`CompilerOptions.read_saved_and_spelled` puts these together.
-/

namespace QueryPipeline

open Json

/-! ## The values of the parts -/

/-- A name is that of one policy at most. -/
theorem UnknownPolicy.ofName?_eq_some_iff {name : String} {policy : UnknownPolicy} :
    ofName? name = some policy ↔ name = policy.name := by
  unfold ofName?
  split <;> cases policy <;> simp_all [UnknownPolicy.name]

/-- A policy is read of its name, and of no other. -/
theorem policyOfName_eq_ok_iff {name : String} {policy : UnknownPolicy} :
    policyOfName name = .ok policy ↔ name = policy.name := by
  rw [← UnknownPolicy.ofName?_eq_some_iff, policyOfName]
  cases UnknownPolicy.ofName? name <;> simp [refuse]

/-- Only null is no content. -/
theorem readUnit_eq_ok_iff {room : Nat} {node : Node} :
    readUnit room node = .ok () ↔ node = .null := by
  cases node <;> simp [readUnit, wrongKind_ne_ok]

/-- A policy is written as its name, or as an object with null under the name. -/
theorem readPolicy_eq_ok_iff {room : Nat} {node : Node} {policy : UnknownPolicy} :
    readPolicy (room + 1) node = .ok policy ↔
      node = .ofText policy.name ∨ node = .single policy.name .null := by
  cases node with
  | string s =>
    simp [readPolicy, bind_eq_ok_iff, orFault_eq_ok_iff, Quoted.read_eq_ok_iff,
      policyOfName_eq_ok_iff, Node.ofText, Node.single]
  | object members =>
    cases members with
    | cons key value tail =>
      simp only [readPolicy, bind_eq_ok_iff, orFault_eq_ok_iff, Quoted.read_eq_ok_iff,
        policyOfName_eq_ok_iff, pure_eq_ok_iff, Unique.exists_iff]
      simp [readUnit_eq_ok_iff, Members.finish_eq_ok_iff, Node.ofText, Node.single, Members.ofList]
    | closed | cut | unnamed =>
      simp [readPolicy, malformed, wrongKind_ne_ok, Node.ofText, Node.single, Members.ofList]
  | absent | misspelled | null | boolean | number | array =>
    simp [readPolicy, malformed, Node.ofText, Node.single]

/-- Of the value of a text a number of 64 bits is read exactly where its digits are written: no
point, no exponent and no sign of a zero. -/
theorem readInt64_eq_ok_iff {piece : List Char} {node : Node} (spelled : SpellsValue piece node)
    {room : Nat} {k : Int64} :
    readInt64 room node = .ok k ↔ node = .number (.ofInteger k.toInt) := by
  have low := k.le_toInt
  have high := k.toInt_lt
  simp only [readInt64, bind_eq_ok_iff, readWhole_eq_ok_iff, pure_eq_ok_iff]
  refine ⟨fun h => ?_, fun h => ?_⟩
  · obtain ⟨n, ⟨numeral, rfl, read, least, most⟩, rfl⟩ := h
    cases spelled with
    | number written =>
      rw [written.eq_ofInteger read, Int64.toInt_ofInt_of_le least (by omega)]
  · exact ⟨k.toInt, ⟨_, h, read_ofInteger (by omega) (by omega), by omega, by omega⟩,
      Int64.ofInt_toInt k⟩

/-! ## The parts of options -/

/-- A part of options. -/
inductive OptionsPart where
  | unknown
  | pageSize

namespace OptionsPart

/-- The name of the member that writes the part. -/
def name : OptionsPart → String
  | unknown => "unknown"
  | pageSize => "default_page_size"

/-- What the part is in options. -/
abbrev Held : OptionsPart → Type
  | unknown => UnknownPolicy
  | pageSize => Int64

/-- The part of options. -/
def held : (part : OptionsPart) → CompilerOptions → part.Held
  | unknown => CompilerOptions.unknown
  | pageSize => CompilerOptions.defaultPageSize

/-- The values of a member that gives the part: the name of the policy, alone or over null in an
object of its own, and the digits of the page size. -/
def Writes : (part : OptionsPart) → part.Held → Node → Prop
  | unknown, policy, node => node = .ofText policy.name ∨ node = .single policy.name .null
  | pageSize, size, node => node = .number (.ofInteger size.toInt)

/-- The reader of the part. -/
def reader (room : Nat) : (part : OptionsPart) → Node → Except ReadError part.Held
  | unknown => readPolicy room
  | pageSize => readInt64 room

/-- What a draft holds of the part. -/
def ofDraft : (part : OptionsPart) → OptionsDraft → Option part.Held
  | unknown => OptionsDraft.unknown
  | pageSize => OptionsDraft.defaultPageSize

/-- A draft with the part given. -/
def fill : (part : OptionsPart) → part.Held → OptionsDraft → OptionsDraft
  | unknown, policy, draft => { draft with unknown := some policy }
  | pageSize, size, draft => { draft with defaultPageSize := some size }

variable {room : Nat} {part : OptionsPart} {name : String} {node : Node}
  {draft draft' : OptionsDraft}

/-- The value of a part in a text is read exactly if it is one that gives the part. -/
theorem reader_eq_ok_iff {piece : List Char} (spelled : SpellsValue piece node) {v : part.Held} :
    part.reader (room + 1) node = .ok v ↔ part.Writes v node := by
  cases part with
  | unknown => exact readPolicy_eq_ok_iff
  | pageSize => exact readInt64_eq_ok_iff spelled

/-- A member of a part's name is read where the part is not given, and gives it. -/
theorem run_field_eq_ok_iff :
    (OptionsDraft.field room part.name draft).run draft node = .ok draft' ↔
      part.ofDraft draft = none ∧ ∃ v, part.reader room node = .ok v ∧
        part.fill v draft = draft' := by
  cases part with
  | unknown | pageSize => exact FieldStep.run_once_eq_ok_iff

/-- A member of another name leaves a part as it was. -/
theorem ofDraft_of_run_field (h : name ≠ part.name)
    (hrun : (OptionsDraft.field room name draft).run draft node = .ok draft') :
    part.ofDraft draft' = part.ofDraft draft := by
  unfold OptionsDraft.field at hrun
  split at hrun <;> cases part <;> first
    | exact absurd rfl h
    | rw [FieldStep.eq_of_run_pass hrun]
    | obtain ⟨-, _, -, rfl⟩ := FieldStep.run_once_eq_ok_iff.1 hrun
      rfl

/-- Options are a record of their parts. -/
theorem isRecord (room : Nat) :
    IsRecord (OptionsDraft.field room) (fun part : OptionsPart => [part.name]) (reader room)
      ofDraft where
  disjoint {part other name} h h' := by
    obtain rfl := List.mem_singleton.1 h
    have same := List.mem_singleton.1 h'
    cases part <;> cases other <;> first
      | rfl
      | simp [OptionsPart.name] at same
  own {part name draft node draft'} h hrun := by
    obtain rfl := List.mem_singleton.1 h
    obtain ⟨free, v, read, rfl⟩ := run_field_eq_ok_iff.1 hrun
    exact ⟨free, v, read, by cases part <;> rfl⟩
  takes {part name draft node v} h free read := by
    obtain rfl := List.mem_singleton.1 h
    exact ⟨_, run_field_eq_ok_iff.2 ⟨free, v, read, rfl⟩⟩
  other h := ofDraft_of_run_field (mt List.mem_singleton.2 h)
  passes {name draft} h := by
    have unknown := mt List.mem_singleton.2 (h .unknown)
    have pageSize := mt List.mem_singleton.2 (h .pageSize)
    unfold OptionsDraft.field
    split
    · exact absurd rfl unknown
    · exact absurd rfl pageSize
    · rfl

end OptionsPart

/-! ## Objects of options -/

namespace CompilerOptions

/-- The members of an object that writes options: each part is given once, with a value that is
its own, or it is left out and as it is where nothing is configured. -/
def WrittenBy (options : CompilerOptions) (members : List (String × Node)) : Prop :=
  ∀ part : OptionsPart,
    (∃ node, valuesOf [part.name] members = [node] ∧ part.Writes (part.held options) node) ∨
      (valuesOf [part.name] members = [] ∧ part.held options = part.held .default)

variable {options : CompilerOptions}

/-- The options of a draft have each part that is given, and any other as it is where nothing is
configured. -/
theorem options_eq_iff {draft : OptionsDraft} : draft.options = options ↔
    ∀ part : OptionsPart, (part.ofDraft draft).getD (part.held .default) = part.held options := by
  refine ⟨fun same part => ?_, fun same => ?_⟩
  · subst same
    cases part <;> rfl
  · have unknown : draft.options.unknown = options.unknown := same .unknown
    have pageSize : draft.options.defaultPageSize = options.defaultPageSize := same .pageSize
    cases options
    cases unknown
    cases pageSize
    rfl

/-- Options are read from the text of an object exactly if it writes them. -/
theorem parse_eq_ok_iff_writtenBy {text : String} {members : List (String × Node)}
    (spelled : Spells text (.object (.ofList members))) :
    parse read text = .ok options ↔ options.WrittenBy members := by
  have empty (part : OptionsPart) : part.ofDraft ⟨none, none⟩ = none := by
    cases part <;> rfl
  have passed : ∀ member ∈ members, member.2.pass = .ok () :=
    Members.pass_ofList_iff.1 (spells_iff.1 spelled).2
  have value (part : OptionsPart) {node : Node} (given : valuesOf [part.name] members = [node]) :
      part.reader (maxDepth - 1) node = .ok (part.held options) ↔
        part.Writes (part.held options) node := by
    obtain ⟨_, _, _, -, ⟨-, -, piece, -⟩⟩ := spelled.exists_alone (find?_ofList_of_valuesOf given)
    exact OptionsPart.reader_eq_ok_iff piece
  calc parse read text = .ok options
    _ ↔ ∃ draft, (Members.ofList members).readFields (OptionsDraft.field (maxDepth - 1))
          ⟨none, none⟩ = .ok draft ∧ draft.options = options := by
      rw [spelled.parse_eq]
      exact bind_eq_ok_iff.trans
        (exists_congr fun draft => and_congr_right fun _ => pure_eq_ok_iff)
    _ ↔ ∀ part : OptionsPart, Supplies (part.reader (maxDepth - 1)) [part.name]
          (part.held .default) members (part.held options) := by
      simp only [options_eq_iff]
      exact (OptionsPart.isRecord _).exists_readFields_iff empty passed
    _ ↔ options.WrittenBy members :=
      forall_congr' fun part =>
        or_congr_left (exists_congr fun node => and_congr_right fun given => value part given)

/-- The names in an object that is read as options are texts. -/
theorem exists_ofList_of_parse {text : String} {object : Members}
    (spelled : Spells text (.object object)) (read : parse read text = .ok options) :
    ∃ members, object = .ofList members := by
  rw [spelled.parse_eq] at read
  rcases readRecord_eq_ok_iff.1 read with ⟨_, _, ⟨⟩, -, -⟩ | ⟨_, ⟨⟩, hmembers⟩
  obtain ⟨draft, hdraft, -⟩ := bind_eq_ok_iff.1 hmembers
  exact Members.exists_ofList_of_readFields hdraft

/-- The text of an object that writes no options is not read. -/
theorem exists_parse_eq_error {text : String} {members : List (String × Node)}
    (spelled : Spells text (.object (.ofList members)))
    (unwritten : ∀ options : CompilerOptions, ¬options.WrittenBy members) :
    ∃ cause, parse read text = .error cause := by
  cases hread : parse read text with
  | ok options =>
    exact absurd ((parse_eq_ok_iff_writtenBy spelled).1 hread) (unwritten options)
  | error cause => exact ⟨cause, rfl⟩

namespace WrittenBy

variable {members : List (String × Node)} {part : OptionsPart}

/-- A part is given once at most. -/
theorem length_valuesOf_le (written : options.WrittenBy members) :
    (valuesOf [part.name] members).length ≤ 1 := by
  rcases written part with ⟨node, given, -⟩ | ⟨omitted, -⟩
  · simp [given]
  · simp [omitted]

/-- What is given of a part is a value of its own. -/
theorem writes_of_mem (written : options.WrittenBy members) {node : Node}
    (h : node ∈ valuesOf [part.name] members) : part.Writes (part.held options) node := by
  rcases written part with ⟨other, given, writes⟩ | ⟨omitted, -⟩
  · rw [given, List.mem_singleton] at h
    exact h ▸ writes
  · rw [omitted] at h
    cases h

end WrittenBy

/-! ## Saved options -/

/-- The members that options are saved with. -/
def members (options : CompilerOptions) : List (String × Node) :=
  [("unknown", .ofText options.unknown.name),
    ("default_page_size", .number (.ofInteger options.defaultPageSize.toInt))]

/-- The text of saved options spells the object of their members. -/
theorem spells_write (options : CompilerOptions) :
    Spells (String.ofList options.write) (.object (.ofList options.members)) := by
  have spelled : SpellsValue options.write (.object (.ofList options.members)) :=
    spells_writeObject (.cons (spellsMember_writeMember "unknown" (spells_writeText _))
      (.cons (spellsMember_writeMember "default_page_size" (spells_integer _)) .nil))
  exact spelled.spells

/-- Options are written by the members that they are saved with. -/
theorem writtenBy_members (options : CompilerOptions) : options.WrittenBy options.members := by
  intro part
  cases part with
  | unknown => exact .inl ⟨_, rfl, .inl rfl⟩
  | pageSize => exact .inl ⟨_, rfl, rfl⟩

/-- Options that are saved are read again as they were, with either policy and every page size of 64
bits. The text of any object is read as the options that it writes: they have what is given, in
whatever order and with whatever other members, and a part that is left out as it is where nothing
is configured. An object that gives a part twice is not read, and neither is one with a page size
that is not written as the digits of a number of 64 bits. -/
theorem read_saved_and_spelled :
    (∀ options : CompilerOptions, parse read (String.ofList options.write) = .ok options) ∧
    ∀ (text : String) (object : Members), Spells text (.object object) →
      (∀ options, parse read text = .ok options ↔
        ∃ members, object = .ofList members ∧ options.WrittenBy members) ∧
      ∀ members, object = .ofList members →
        (∀ part : OptionsPart, 2 ≤ (valuesOf [part.name] members).length →
          ∃ cause, parse read text = .error cause) ∧
        ∀ size ∈ valuesOf [OptionsPart.pageSize.name] members,
          (∀ n : Int, -2 ^ 63 ≤ n → n < 2 ^ 63 → size ≠ .number (.ofInteger n)) →
          ∃ cause, parse read text = .error cause := by
  refine ⟨fun options => ?_, fun text object spelled =>
    ⟨fun options => ?_, fun members same => ?_⟩⟩
  · exact (parse_eq_ok_iff_writtenBy options.spells_write).2 options.writtenBy_members
  · refine ⟨fun hread => ?_, fun ⟨members, same, written⟩ => ?_⟩
    · obtain ⟨members, rfl⟩ := exists_ofList_of_parse spelled hread
      exact ⟨members, rfl, (parse_eq_ok_iff_writtenBy spelled).1 hread⟩
    · subst same
      exact (parse_eq_ok_iff_writtenBy spelled).2 written
  · subst same
    refine ⟨fun part twice => ?_, fun size given noInteger => ?_⟩
    · refine exists_parse_eq_error spelled fun options written => ?_
      have most : (valuesOf [part.name] members).length ≤ 1 := written.length_valuesOf_le
      omega
    · refine exists_parse_eq_error spelled fun options written => ?_
      have writes : size = .number (.ofInteger options.defaultPageSize.toInt) :=
        written.writes_of_mem given
      exact noInteger _ options.defaultPageSize.le_toInt options.defaultPageSize.toInt_lt writes

/-- The least page size of 64 bits; members in the other order, one of them under an escape, after
one that options do not have; a name in other letters, which is none of theirs; and three objects
that are not read, for a policy that is given twice, a zero with a sign and a point. -/
theorem read_saved_and_spelled_least_and_refused :
    let least : CompilerOptions := ⟨.reject, -9223372036854775808⟩
    let mixed := "\x7b \"x\":[1e999],\"default_page_size\":25," ++
      "\"\\u0075nknown\":\x7b\"reject\":null\x7d\x7d"
    let twice := "\x7b\"unknown\":\"ignore\",\"unknown\":\"ignore\"\x7d"
    parse read (String.ofList least.write) = .ok least ∧
      String.ofList least.write =
        "\x7b\"unknown\":\"reject\",\"default_page_size\":-9223372036854775808\x7d" ∧
      parse read mixed = .ok ⟨.reject, 25⟩ ∧
      parse read "\x7b\"Unknown\":\"reject\"\x7d" = .ok .default ∧
      (∃ cause, parse read twice = .error cause) ∧
      (∃ cause, parse read "\x7b\"default_page_size\":-0\x7d" = .error cause) ∧
      ∃ cause, parse read "\x7b\"default_page_size\":1.0\x7d" = .error cause := by
  intro least mixed twice
  obtain ⟨saved, spelled⟩ := read_saved_and_spelled
  let great : Node := .number (.written ⟨false, ['1'], [], some (false, ['9', '9', '9'])⟩)
  have hmixed : Spells mixed (.object (.ofList [("x", .array (.ofList [great])),
      ("default_page_size", .number (.ofInteger 25)), ("unknown", .single "reject" .null)])) := by
    set_option maxRecDepth 2048 in
    exact spells_iff.2 ⟨by cbv, rfl⟩
  have hother : Spells "\x7b\"Unknown\":\"reject\"\x7d"
      (.object (.ofList [("Unknown", .ofText "reject")])) :=
    spells_iff.2 ⟨by cbv, rfl⟩
  have htwice : Spells twice
      (.object (.ofList [("unknown", .ofText "ignore"), ("unknown", .ofText "ignore")])) :=
    spells_iff.2 ⟨by cbv, rfl⟩
  have hzero : Spells "\x7b\"default_page_size\":-0\x7d" (.object (.ofList
      [("default_page_size", .number (.written ⟨true, ['0'], [], none⟩))])) :=
    spells_iff.2 ⟨by cbv, rfl⟩
  have hpoint : Spells "\x7b\"default_page_size\":1.0\x7d" (.object (.ofList
      [("default_page_size", .number (.written ⟨false, ['1'], ['0'], none⟩))])) :=
    spells_iff.2 ⟨by cbv, rfl⟩
  refine ⟨saved least, by cbv, ((spelled _ _ hmixed).1 _).2 ⟨_, rfl, fun part => ?_⟩,
    ((spelled _ _ hother).1 _).2 ⟨_, rfl, fun part => ?_⟩,
    ((spelled _ _ htwice).2 _ rfl).1 .unknown (Nat.le_refl 2),
    ((spelled _ _ hzero).2 _ rfl).2 _ (.head _) fun n _ _ same => ?_,
    ((spelled _ _ hpoint).2 _ rfl).2 _ (.head _) fun n _ _ same => ?_⟩
  · cases part with
    | unknown => exact .inl ⟨_, rfl, .inr rfl⟩
    | pageSize => exact .inl ⟨_, rfl, rfl⟩
  · cases part with
    | unknown | pageSize => exact .inr ⟨rfl, rfl⟩
  · have lexeme := Numeral.written.inj (Node.number.inj same)
    have negative : n < 0 := of_decide_eq_true (congrArg Lexeme.negative lexeme).symm
    have digits : ['0'] = Text.natural n.natAbs := congrArg Lexeme.whole lexeme
    have value : 0 = n.natAbs := by rw [← Text.digitsValue_natural n.natAbs, ← digits]; rfl
    omega
  · have lexeme := Numeral.written.inj (Node.number.inj same)
    have fraction : ['0'] = [] := congrArg Lexeme.fraction lexeme
    cases fraction

end CompilerOptions

end QueryPipeline
