import QueryPipeline.Json.Decode
import QueryPipeline.Proofs.Outcome

/-!
# Records that are read

What a successful reading says about the tree it read. A record comes from an array, element by
element (`Items.nextOrRefuse_eq_ok_iff`), or from an object, member by member
(`Members.readFields_cons_eq_ok_iff`). What the default of a part has and whatever is read for it,
the part has in either form (`Items.of_nextOr`, `Members.getD_of_readFields`). A part that only
members of one name write, and write once, is a slot (`IsSlot`); after the whole object it holds
what the first member of that name was read as (`IsSlot.of_readFields`).
-/

namespace QueryPipeline.Json

variable {α σ : Type}

/-! ## Texts and scalars -/

/-- A part without a fault is read as it is. -/
theorem orFault_eq_ok_iff {x : Except Fault α} {a : α} : orFault x = .ok a ↔ x = .ok a := by
  cases x <;> simp [orFault]

/-- A text is read exactly if its value is and nothing follows the value. -/
theorem parse_eq_ok_iff {reader : Reader α} {text : String} {a : α} :
    parse reader text = .ok a ↔
      reader maxDepth (scan text).node = .ok a ∧ (scan text).isWhole = true := by
  simp only [parse, bind_eq_ok_iff]
  constructor
  · rintro ⟨b, hb, h⟩
    split at h
    · next whole =>
      cases h
      exact ⟨hb, whole⟩
    · cases h
  · rintro ⟨ha, whole⟩
    exact ⟨a, ha, by rw [if_pos whole]; rfl⟩

/-- No value of another kind than expected is read. -/
theorem wrongKind_ne_ok {expected : String} {node : Node} {a : α} :
    wrongKind expected node ≠ .ok a := by
  unfold wrongKind
  cases node.found with
  | ok found => simp [refuse]
  | error e => simp

/-- A value that may be null is null or is read as it would be on its own. -/
theorem readOptional_eq_some {reader : Reader α} {room : Nat} {node : Node} {a : α}
    (h : readOptional reader room node = .ok (some a)) : reader room node = .ok a := by
  cases node with
  | null => cases h
  | absent | misspelled | boolean | number | string | array | object =>
    obtain ⟨b, hb, hba⟩ := map_eq_ok_iff.1 h
    cases hba
    exact hb

/-- A whole number between two bounds is read of a number that is one, and of nothing else. -/
theorem readWhole_eq_ok_iff {low high n : Int} {expected : String} {room : Nat} {node : Node} :
    readWhole low high expected room node = .ok n ↔
      ∃ numeral, node = .number numeral ∧ numeral.read = .ok (.whole n) ∧ low ≤ n ∧ n ≤ high := by
  cases node with
  | number numeral =>
    simp only [readWhole, Node.number.injEq, exists_eq_left']
    cases numeral.read with
    | error fault => simp
    | ok quantity =>
      cases quantity with
      | double x => simp [refuse]
      | whole k =>
        dsimp only
        split <;> grind [refuse]
  | absent | misspelled | null | boolean | string | array | object =>
    simp [readWhole, wrongKind_ne_ok]

/-! ## Elements -/

/-- The element of an array at a position. -/
def Items.get? : Nat → Items → Option Node
  | 0, .cons head _ => some head
  | index + 1, .cons _ tail => tail.get? index
  | _, _ => none

/-- A field by order that must not be missing is the first of the elements that are left. -/
theorem Items.nextOrRefuse_eq_ok_iff {missing : Mismatch} {reader : Node → Except ReadError α}
    {items rest : Items} {a : α} :
    items.nextOrRefuse missing reader = .ok (a, rest) ↔
      ∃ head, items = .cons head rest ∧ reader head = .ok a := by
  cases items with
  | closed => simp [nextOrRefuse, next?, bind, Except.bind, refuse]
  | cut fault => simp [nextOrRefuse, next?, bind, Except.bind]
  | cons head tail =>
    have hnext : (Items.cons head tail).nextOrRefuse missing reader =
        reader head >>= fun a => pure (a, tail) := rfl
    rw [hnext, bind_eq_ok_iff]
    constructor
    · rintro ⟨b, hb, h⟩
      cases h
      exact ⟨head, rfl, hb⟩
    · rintro ⟨_, h, hb⟩
      cases h
      exact ⟨a, hb, rfl⟩

/-- A field by order that may be missing is the first of the elements that are left, or takes its
default where none is. -/
theorem Items.nextOr_eq_ok_iff {default : α} {reader : Node → Except ReadError α}
    {items rest : Items} {a : α} :
    items.nextOr default reader = .ok (a, rest) ↔
      (items = .closed ∧ rest = .closed ∧ a = default) ∨
        ∃ head, items = .cons head rest ∧ reader head = .ok a := by
  cases items with
  | closed => simp [nextOr, next?, bind, Except.bind, pure, Except.pure, eq_comm, and_comm]
  | cut fault => simp [nextOr, next?, bind, Except.bind]
  | cons head tail =>
    have hnext : (Items.cons head tail).nextOr default reader =
        reader head >>= fun a => pure (a, tail) := rfl
    rw [hnext, bind_eq_ok_iff]
    constructor
    · rintro ⟨b, hb, h⟩
      cases h
      exact .inr ⟨head, rfl, hb⟩
    · rintro (⟨h, -⟩ | ⟨_, h, hb⟩)
      · cases h
      · cases h
        exact ⟨a, hb, rfl⟩

/-- A field by order has what its default has and every value that is read for it. -/
theorem Items.of_nextOr {P : α → Prop} {default : α} {reader : Node → Except ReadError α}
    {items rest : Items} {a : α} (missing : P default) (given : ∀ node a, reader node = .ok a → P a)
    (h : items.nextOr default reader = .ok (a, rest)) : P a := by
  rcases Items.nextOr_eq_ok_iff.1 h with ⟨-, -, rfl⟩ | ⟨head, -, hread⟩
  · exact missing
  · exact given head a hread

/-- What holds of every element that is read holds of all elements of an array. -/
theorem Items.forall_mem_of_readAll {reader : Node → Except ReadError α} {P : α → Prop}
    (element : ∀ node a, reader node = .ok a → P a) :
    ∀ {items : Items} {as : List α}, items.readAll reader = .ok as → ∀ a ∈ as, P a
  | .closed, _, hread => by
    cases hread
    exact fun _ h => absurd h List.not_mem_nil
  | .cut _, _, hread => by cases hread
  | .cons head tail, as, hread => by
    obtain ⟨a, ha, hread⟩ := bind_eq_ok_iff.1 hread
    obtain ⟨rest, hrest, h⟩ := bind_eq_ok_iff.1 hread
    cases h
    exact List.forall_mem_cons.2 ⟨element head a ha, forall_mem_of_readAll element hrest⟩

/-- An array of any length is read element by element, one level further in. -/
theorem readList_eq_ok_iff {reader : Reader α} {room : Nat} {node : Node} {as : List α} :
    readList reader room node = .ok as ↔ ∃ inner items, room = inner + 1 ∧ node = .array items ∧
      items.readAll (reader inner) = .ok as := by
  cases node with
  | array items =>
    cases room with
    | zero => simp [readList, malformed]
    | succ room => simp [readList]
  | absent | misspelled | null | boolean | number | string | object =>
    simp [readList, wrongKind_ne_ok]

/-! ## Members -/

/-- The value of the first member of a name. -/
def Members.find? (name : String) : Members → Option Node
  | .cons (.text content) value tail => if content = name then some value else tail.find? name
  | .cons _ _ tail => tail.find? name
  | _ => none

/-- An object ends where no member follows. -/
theorem Members.finish_eq_ok_iff {members : Members} :
    members.finish = .ok () ↔ members = .closed := by
  cases members <;> simp [finish, malformed]

/-- What a member makes of what was read before it. -/
def FieldStep.run (before : σ) (node : Node) : FieldStep σ → Except ReadError σ
  | .pass => orFault (node.pass.map fun _ => before)
  | .refuse m => Json.refuse m
  | .read reader => reader node

/-- A member is read by its name, and then the members after it. -/
theorem Members.readFields_cons (field : String → σ → FieldStep σ) (key : Quoted) (value : Node)
    (tail : Members) (s : σ) :
    (Members.cons key value tail).readFields field s = (do
      let name ← orFault key.read
      let s' ← (field name s).run s value
      tail.readFields field s') := by
  rw [readFields]
  congr 1
  funext name
  cases field name s with
  | pass =>
    cases h : value.pass with
    | ok | error => simp [FieldStep.run, h, orFault, Except.map, bind, Except.bind]
  | refuse | read => rfl

/-- A key is read as a name exactly if it is that text. -/
theorem Quoted.read_eq_ok_iff {key : Quoted} {name : String} :
    key.read = .ok name ↔ key = .text name := by
  cases key with
  | text | loose | broken => simp [Quoted.read]

/-- Members are read exactly if each is, after those before it. -/
theorem Members.readFields_cons_eq_ok_iff {field : String → σ → FieldStep σ} {key : Quoted}
    {value : Node} {tail : Members} {s t : σ} :
    (Members.cons key value tail).readFields field s = .ok t ↔
      ∃ name s', key = .text name ∧ (field name s).run s value = .ok s' ∧
        tail.readFields field s' = .ok t := by
  simp only [readFields_cons, bind_eq_ok_iff, orFault_eq_ok_iff, Quoted.read_eq_ok_iff,
    exists_and_left]

/-- A member is passed over exactly if its value can be. -/
theorem FieldStep.run_pass_eq_ok_iff {s s' : σ} {node : Node} :
    pass.run s node = .ok s' ↔ node.pass = .ok () ∧ s' = s := by
  simp only [run, orFault_eq_ok_iff, map_eq_ok_iff, Unique.exists_iff]
  constructor
  · rintro ⟨passed, rfl⟩
    exact ⟨passed, rfl⟩
  · rintro ⟨passed, rfl⟩
    exact ⟨passed, rfl⟩

/-- A member that is passed over leaves what was read before it. -/
theorem FieldStep.eq_of_run_pass {s s' : σ} {node : Node} (h : pass.run s node = .ok s') :
    s' = s :=
  (FieldStep.run_pass_eq_ok_iff.1 h).2

/-- A field that may be given once is read where it was not given before. -/
theorem FieldStep.run_once_eq_ok_iff {β : Type} {present : Option α} {name : String}
    {reader : Node → Except ReadError β} {write : β → σ} {s s' : σ} {node : Node} :
    (FieldStep.once present name fun node => do return write (← reader node)).run s node = .ok s' ↔
      present = none ∧ ∃ b, reader node = .ok b ∧ write b = s' := by
  cases present with
  | none => simp only [once, run, Option.isSome_none, Bool.false_eq_true, if_false, true_and,
      bind_eq_ok_iff, pure_eq_ok_iff]
  | some a => simp [once, run, Json.refuse]

/-- What each member that is read preserves holds after the whole object. -/
theorem Members.readFields_preserves {field : String → σ → FieldStep σ} {P : σ → Prop}
    (step : ∀ name s node s', P s → (field name s).run s node = .ok s' → P s') :
    ∀ {members : Members} {s t : σ}, members.readFields field s = .ok t → P s → P t
  | .closed, _, _, hread, hs => by
    cases hread
    exact hs
  | .cut _, _, _, hread, _ | .unnamed _, _, _, hread, _ => by cases hread
  | .cons key value tail, s, t, hread, hs => by
    obtain ⟨name, s', -, hrun, hread⟩ := Members.readFields_cons_eq_ok_iff.1 hread
    exact readFields_preserves step hread (step name s value s' hs hrun)

/-- A part of a record has what its default has and every value that a member writes to it. -/
theorem Members.getD_of_readFields {field : String → σ → FieldStep σ} (part : σ → Option α)
    {P : α → Prop} {default : α} {members : Members} {s t : σ} (missing : P default)
    (member : ∀ name s node s', (field name s).run s node = .ok s' →
      part s' = part s ∨ ∃ a, part s' = some a ∧ P a)
    (hread : members.readFields field s = .ok t) (start : part s = none) :
    P ((part t).getD default) := by
  have given : ∀ a, part t = some a → P a := by
    refine readFields_preserves (P := fun s => ∀ a, part s = some a → P a) ?_ hread
      (fun a h => by simp [start] at h)
    intro name s node s' before hrun a ha
    rcases member name s node s' hrun with same | ⟨b, hb, holds⟩
    · exact before a (same ▸ ha)
    · rw [hb] at ha
      cases ha
      exact holds
  cases h : part t with
  | none => exact missing
  | some a => exact given a h

/-- A part of a record that the members of one name write, once, and no other member does. -/
structure IsSlot (field : String → σ → FieldStep σ) (name : String)
    (reader : Node → Except ReadError α) (slot : σ → Option α) : Prop where
  own : ∀ s node s', (field name s).run s node = .ok s' →
    slot s = none ∧ ∃ a, reader node = .ok a ∧ slot s' = some a
  other : ∀ n s node s', n ≠ name → (field n s).run s node = .ok s' → slot s' = slot s

/-- A slot that is taken keeps what it holds. -/
theorem IsSlot.kept {field : String → σ → FieldStep σ} {name : String}
    {reader : Node → Except ReadError α} {slot : σ → Option α} (h : IsSlot field name reader slot)
    {a : α} : ∀ {members : Members} {s t : σ}, members.readFields field s = .ok t →
      slot s = some a → slot t = some a
  | .closed, s, t, hread, hs => by
    cases hread
    exact hs
  | .cut _, _, _, hread, _ | .unnamed _, _, _, hread, _ => by cases hread
  | .cons key value tail, s, t, hread, hs => by
    obtain ⟨n, s', -, hrun, hread⟩ := Members.readFields_cons_eq_ok_iff.1 hread
    refine h.kept hread ?_
    by_cases hn : n = name
    · subst hn
      rw [(h.own s value s' hrun).1] at hs
      cases hs
    · rw [h.other n s value s' hn hrun, hs]

/-- A slot holds what the first member of its name was read as, and what it held before if there is
no such member. -/
theorem IsSlot.of_readFields {field : String → σ → FieldStep σ} {name : String}
    {reader : Node → Except ReadError α} {slot : σ → Option α} (h : IsSlot field name reader slot)
    : ∀ {members : Members} {s t : σ}, members.readFields field s = .ok t →
    (members.find? name = none ∧ slot t = slot s) ∨
      ∃ node a, members.find? name = some node ∧ reader node = .ok a ∧ slot t = some a
  | .closed, s, t, hread => by
    cases hread
    exact .inl ⟨rfl, rfl⟩
  | .cut _, _, _, hread | .unnamed _, _, _, hread => by cases hread
  | .cons key value tail, s, t, hread => by
    obtain ⟨n, s', rfl, hrun, hread⟩ := Members.readFields_cons_eq_ok_iff.1 hread
    by_cases hn : n = name
    · obtain ⟨-, a, ha, hs'⟩ := h.own s value s' (hn ▸ hrun)
      exact .inr ⟨value, a, by rw [Members.find?, if_pos hn], ha, h.kept hread hs'⟩
    · rw [Members.find?, if_neg hn, ← h.other n s value s' hn hrun]
      exact h.of_readFields hread

/-- A record is read only where a level may still be entered. -/
theorem exists_room_of_readRecord {expected : String} {room : Nat} {node : Node} {a : α}
    {byOrder : Nat → Items → Except ReadError (α × Items)}
    {byName : Nat → Members → Except ReadError α}
    (h : readRecord expected byOrder byName room node = .ok a) : ∃ inner, room = inner + 1 := by
  cases room with
  | zero => cases node <;> simp [readRecord, malformed, wrongKind_ne_ok] at h
  | succ inner => exact ⟨inner, rfl⟩

/-- A record is read from an array or an object, whose parts are one level further in. -/
theorem readRecord_eq_ok_iff {expected : String} {room : Nat} {node : Node} {a : α}
    {byOrder : Nat → Items → Except ReadError (α × Items)}
    {byName : Nat → Members → Except ReadError α} :
    readRecord expected byOrder byName (room + 1) node = .ok a ↔
      (∃ items rest, node = .array items ∧ byOrder room items = .ok (a, rest) ∧
        rest.finish = .ok ()) ∨
      ∃ members, node = .object members ∧ byName room members = .ok a := by
  cases node with
  | array items =>
    simp only [readRecord, bind_eq_ok_iff, pure_eq_ok_iff]
    constructor
    · rintro ⟨⟨b, rest⟩, hparts, _, hfinish, rfl⟩
      exact .inl ⟨items, rest, rfl, hparts, hfinish⟩
    · rintro (⟨_, rest, h, hparts, hfinish⟩ | ⟨_, h, -⟩)
      · cases h
        exact ⟨(a, rest), hparts, (), hfinish, rfl⟩
      · cases h
  | object members => simp [readRecord]
  | absent | misspelled | null | boolean | number | string =>
    simp [readRecord, wrongKind_ne_ok]

end QueryPipeline.Json
