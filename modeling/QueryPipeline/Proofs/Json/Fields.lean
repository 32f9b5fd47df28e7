import QueryPipeline.Proofs.Json.Record
import QueryPipeline.Proofs.Json.Scan
import QueryPipeline.Proofs.Json.Write
import Mathlib.Tactic.Choose

/-!
# The members of a record in any order

A record is read from the members of an object whatever their order is. `valuesOf` lists what an
object gives under the names that one part of a record may have, and `Fills` says what a part holds
after the object was read, if it is given once or left out. A reader of a record (`IsRecord`) takes
an object that gives each part once at most, with a value that can be read
(`IsRecord.exists_readFields`), and takes no other (`IsRecord.fills_of_readFields`). So an object is
read from the start exactly if it `Supplies` each part, where a part that is left out may have a
value all the same (`IsRecord.exists_readFields_iff`).

Members that do not notice what a part holds are read as they would be without it
(`Members.readFields_map`).
-/

namespace QueryPipeline.Json

variable {α σ : Type}

/-! ## Texts that are spelled -/

/-- A text that spells a tree is read as the tree is. -/
theorem Spells.parse_eq {text : String} {node : Node} (h : Spells text node) (reader : Reader α) :
    parse reader text = reader maxDepth node := by
  obtain ⟨hscan, -⟩ := spells_iff.1 h
  rw [parse, hscan]
  cases reader maxDepth node <;> rfl

/-- The first member of a name is the first one or stands after it. -/
theorem Members.eq_or_find?_of_cons {key : Quoted} {value node : Node} {tail : Members}
    {name : String} (h : (Members.cons key value tail).find? name = some node) :
    node = value ∨ tail.find? name = some node := by
  cases key with
  | text content =>
    rw [Members.find?] at h
    split at h
    · cases h
      exact .inl rfl
    · exact .inr h
  | loose | broken => exact .inr h

/-- The text of an object holds the text of each member that is found by its name. -/
theorem SpellsMembers.exists_piece : ∀ {members : Members} {text : List Char} {name : String}
    {node : Node}, SpellsMembers text members → members.find? name = some node →
    ∃ before piece after, text = before ++ (piece ++ after) ∧ SpellsValue piece node
  | .closed, _, _, _, _, found | .cut _, _, _, _, _, found | .unnamed _, _, _, _, _, found => by
    cases found
  | .cons key value tail, _, _, _, h, found => by
    cases h with
    | @last label space own close _ _ _ _ h _ =>
      rcases Members.eq_or_find?_of_cons found with rfl | found
      · exact ⟨label ++ space, own, close ++ ['\x7d'], by simp, h⟩
      · cases found
    | @cons label space own close rest _ _ _ _ _ h _ hrest =>
      rcases Members.eq_or_find?_of_cons found with rfl | found
      · exact ⟨label ++ space, own, close ++ ',' :: rest, by simp, h⟩
      · obtain ⟨before, piece, after, rfl, spelled⟩ := hrest.exists_piece found
        exact ⟨label ++ (space ++ (own ++ (close ++ ',' :: before))), piece, after, by simp,
          spelled⟩

/-- The text of an object as a whole holds the text of each member that is found by its name. -/
theorem Spells.exists_alone {text name : String} {members : Members} {node : Node}
    (h : Spells text (.object members)) (found : members.find? name = some node) :
    ∃ before alone after, text = before ++ alone ++ after ∧ Spells alone node := by
  obtain @⟨front, _, back, htext, -, h, -⟩ := h
  have member : ∃ before piece after, text.toList = before ++ (piece ++ after) ∧
      SpellsValue piece node := by
    cases h with
    | emptyObject => cases found
    | object h =>
      obtain ⟨before, piece, after, rfl, spelled⟩ := h.exists_piece found
      exact ⟨front ++ '\x7b' :: before, piece, after ++ back, by simp [htext], spelled⟩
  obtain ⟨before, piece, after, hsplit, spelled⟩ := member
  refine ⟨String.ofList before, String.ofList piece, String.ofList after, ?_, spelled.spells⟩
  rw [← String.toList_inj]
  simp [hsplit]

/-- The elements of an array pass exactly if each does. -/
theorem Items.pass_ofList_iff {nodes : List Node} :
    (Items.ofList nodes).pass = .ok () ↔ ∀ node ∈ nodes, node.pass = .ok () := by
  induction nodes with
  | nil => simp [ofList, pass]
  | cons node rest ih => rw [ofList, pass_cons_eq_ok_iff, ih, List.forall_mem_cons]

/-- The members of an object pass exactly if the value of each does. -/
theorem Members.pass_ofList_iff {members : List (String × Node)} :
    (Members.ofList members).pass = .ok () ↔ ∀ member ∈ members, member.2.pass = .ok () := by
  induction members with
  | nil => simp [ofList, pass]
  | cons member rest ih =>
    rw [ofList, pass_cons_eq_ok_iff, ih, List.forall_mem_cons, Quoted.pass]
    exact and_iff_right rfl

/-! ## Reading each element and each member -/

/-- An array is read element by element. -/
theorem Items.readAll_ofList_eq_ok_iff {reader : Node → Except ReadError α} {nodes : List Node}
    {as : List α} :
    (Items.ofList nodes).readAll reader = .ok as ↔
      List.Forall₂ (fun node a => reader node = .ok a) nodes as := by
  rw [← mapM_eq_ok_iff]
  suffices same : (Items.ofList nodes).readAll reader = nodes.mapM reader by rw [same]
  induction nodes with
  | nil => rfl
  | cons node rest ih =>
    rw [ofList, readAll, List.mapM_cons, ih]

/-! ## Members one after another -/

/-- The object of members in order, whose names may be no texts. -/
def Members.ofQuoted : List (Quoted × Node) → Members
  | [] => .closed
  | (key, node) :: rest => .cons key node (ofQuoted rest)

/-- The first members of an object are read, and then the others. -/
theorem Members.readFields_append (field : String → σ → FieldStep σ)
    (before after : List (Quoted × Node)) (s : σ) :
    (ofQuoted (before ++ after)).readFields field s =
      (ofQuoted before).readFields field s >>= (ofQuoted after).readFields field := by
  induction before generalizing s with
  | nil => rfl
  | cons member rest ih =>
    simp only [List.cons_append, ofQuoted, readFields_cons, ih, bind_assoc]

/-- Of the members of an object one is read after those before it. -/
theorem Members.readFields_append_cons (field : String → σ → FieldStep σ)
    (before after : List (Quoted × Node)) (name : String) (node : Node) (s : σ) :
    (ofQuoted (before ++ (.text name, node) :: after)).readFields field s = (do
      let s ← (ofQuoted before).readFields field s
      let s ← (field name s).run s node
      (ofQuoted after).readFields field s) := by
  rw [readFields_append]
  congr 1
  funext s
  rw [ofQuoted, readFields_cons]
  rfl

/-- Every member of an object that is read has a text for its name. -/
theorem Members.exists_ofList_of_readFields {field : String → σ → FieldStep σ} :
    ∀ {members : Members} {s t : σ}, members.readFields field s = .ok t →
      ∃ named, members = .ofList named
  | .closed, _, _, _ => ⟨[], rfl⟩
  | .cut _, _, _, h | .unnamed _, _, _, h => by cases h
  | .cons key value tail, _, _, h => by
    obtain ⟨name, s', rfl, -, hrest⟩ := Members.readFields_cons_eq_ok_iff.1 h
    obtain ⟨named, rfl⟩ := exists_ofList_of_readFields hrest
    exact ⟨(name, value) :: named, rfl⟩

/-- A name that no member has is not found. -/
theorem Members.find?_ofQuoted_eq_none {name : String} {members : List (Quoted × Node)}
    (h : ∀ member ∈ members, member.1 ≠ .text name) : (ofQuoted members).find? name = none := by
  induction members with
  | nil => rfl
  | cons member rest ih =>
    obtain ⟨hkey, hrest⟩ := List.forall_mem_cons.1 h
    obtain ⟨key, node⟩ := member
    cases key with
    | text content =>
      have hname : content ≠ name := fun same => hkey (same ▸ rfl)
      rw [ofQuoted, find?, if_neg hname, ih hrest]
    | loose | broken => exact ih hrest

/-- A change of what was read before that no member notices is there after them, too. -/
theorem Members.readFields_map {field : String → σ → FieldStep σ} {f : σ → σ} {name : String}
    (step : ∀ n ≠ name, ∀ s node,
      (field n (f s)).run (f s) node = ((field n s).run s node).map f)
    {members : List (Quoted × Node)} (h : ∀ member ∈ members, member.1 ≠ .text name) (s : σ) :
    (ofQuoted members).readFields field (f s) = ((ofQuoted members).readFields field s).map f := by
  induction members generalizing s with
  | nil => rfl
  | cons member rest ih =>
    obtain ⟨hkey, hrest⟩ := List.forall_mem_cons.1 h
    obtain ⟨key, node⟩ := member
    rw [ofQuoted, readFields_cons, readFields_cons]
    cases key with
    | text content =>
      have hname : content ≠ name := fun same => hkey (same ▸ rfl)
      have hstep := step content hname s node
      cases hrun : (field content s).run s node with
      | ok s' =>
        rw [hrun] at hstep
        simpa [Quoted.read, orFault, hrun, hstep, Except.map, bind, Except.bind] using ih hrest s'
      | error e =>
        rw [hrun] at hstep
        simp [Quoted.read, orFault, hrun, hstep, Except.map, bind, Except.bind]
    | loose | broken => rfl

/-- A value that is passed over is passed over whatever was read before. -/
theorem FieldStep.run_pass_map {f : σ → σ} {s : σ} {node : Node} :
    pass.run (f s) node = (pass.run s node).map f := by
  unfold run
  cases node.pass <;> rfl

/-- A field that may be given once is refused where it was given. -/
theorem FieldStep.run_once {present : Option α} {name : String}
    {reader : Node → Except ReadError σ} {s : σ} {node : Node} :
    (once present name reader).run s node =
      if present.isSome then Json.refuse (.duplicateField name) else reader node := by
  unfold once
  split <;> rfl

/-- A value that is read into a changed record is read into the record and changed after. -/
theorem FieldStep.run_once_map {β : Type} {present : Option α} {name : String}
    {reader : Node → Except ReadError β} {f : σ → σ} {write changed : β → σ} {s s' : σ}
    {node : Node}
    (h : ∀ b, changed b = f (write b)) :
    (once present name fun node => do return changed (← reader node)).run s' node =
      ((once present name fun node => do return write (← reader node)).run s node).map f := by
  obtain rfl : changed = f ∘ write := funext h
  rw [run_once, run_once]
  split
  · rfl
  · cases reader node <;> rfl

/-! ## Parts with several names -/

/-- What the members of an object give under one of some names, in order. -/
def valuesOf (names : List String) (members : List (String × Node)) : List Node :=
  members.filterMap fun member => if member.1 ∈ names then some member.2 else none

section
variable {names : List String} {name : String} {node : Node} {rest : List (String × Node)}

/-- A member of the names gives its value. -/
theorem valuesOf_cons_of_mem (h : name ∈ names) :
    valuesOf names ((name, node) :: rest) = node :: valuesOf names rest := by
  simp [valuesOf, h]

/-- A member of another name gives nothing. -/
theorem valuesOf_cons_of_notMem (h : name ∉ names) :
    valuesOf names ((name, node) :: rest) = valuesOf names rest := by
  simp [valuesOf, h]

/-- The first value that is given under a name is the one that is found by it. -/
theorem find?_ofList_of_valuesOf {members : List (String × Node)} {others : List Node}
    (h : valuesOf [name] members = node :: others) :
    (Members.ofList members).find? name = some node := by
  induction members with
  | nil => cases h
  | cons member rest ih =>
    obtain ⟨n, value⟩ := member
    by_cases hn : n = name
    · rw [valuesOf_cons_of_mem (List.mem_singleton.2 hn)] at h
      rw [Members.ofList, Members.find?, if_pos hn, (List.cons.inj h).1]
    · rw [valuesOf_cons_of_notMem (mt List.mem_singleton.1 hn)] at h
      rw [Members.ofList, Members.find?, if_neg hn, ih h]

/-- What a part holds before an object is read and after it, if the object gives the part once or
leaves it out. -/
inductive Fills (reader : Node → Except ReadError α) (names : List String)
    (members : List (String × Node)) : Option α → Option α → Prop
  | omitted {held : Option α} (h : valuesOf names members = []) :
      Fills reader names members held held
  | given {node : Node} {a : α} (h : valuesOf names members = [node]) (read : reader node = .ok a) :
      Fills reader names members none (some a)

variable {reader : Node → Except ReadError α} {before after : Option α}

/-- After the last member a part holds what it held. -/
theorem Fills.eq_of_nil (h : Fills reader names [] before after) : after = before := by
  cases h with
  | omitted => rfl
  | given h => cases h

/-- A part depends on what is given of it only. -/
theorem Fills.of_valuesOf_eq {members : List (String × Node)}
    (h : Fills reader names members before after)
    (same : valuesOf names members = valuesOf names rest) :
    Fills reader names rest before after := by
  cases h with
  | omitted h => exact .omitted (same ▸ h)
  | given h read => exact .given (same ▸ h) read

/-- A member of another name leaves a part to the members after it. -/
theorem Fills.cons_notMem_iff (hname : name ∉ names) :
    Fills reader names ((name, node) :: rest) before after ↔
      Fills reader names rest before after :=
  ⟨fun h => h.of_valuesOf_eq (valuesOf_cons_of_notMem hname),
    fun h => h.of_valuesOf_eq (valuesOf_cons_of_notMem hname).symm⟩

/-- A member of the part's names is the only one and fills the part. -/
theorem Fills.cons_mem_iff (hname : name ∈ names) :
    Fills reader names ((name, node) :: rest) before after ↔
      before = none ∧ ∃ a, reader node = .ok a ∧ Fills reader names rest (some a) after := by
  have first : valuesOf names ((name, node) :: rest) = node :: valuesOf names rest :=
    valuesOf_cons_of_mem hname
  refine ⟨fun h => ?_, ?_⟩
  · cases h with
    | omitted h => cases first.symm.trans h
    | given h read =>
      obtain ⟨rfl, hrest⟩ := List.cons.inj (first.symm.trans h)
      exact ⟨rfl, _, read, .omitted hrest⟩
  · intro ⟨free, a, read, h⟩
    cases h with
    | omitted hrest =>
      subst free
      exact .given (first.trans (by rw [hrest])) read

/-- What an object supplies for a part: the one value under its names, or the value of a part that
is left out. -/
def Supplies (reader : Node → Except ReadError α) (names : List String) (default : α)
    (members : List (String × Node)) (a : α) : Prop :=
  (∃ node, valuesOf names members = [node] ∧ reader node = .ok a) ∨
    (valuesOf names members = [] ∧ a = default)

/-- A part that held nothing holds what an object supplies for it. -/
theorem exists_fills_iff_supplies {members : List (String × Node)} {default a : α} :
    (∃ after, Fills reader names members none after ∧ after.getD default = a) ↔
      Supplies reader names default members a := by
  refine ⟨fun ⟨after, fills, held⟩ => ?_, fun supplied => ?_⟩
  · subst held
    cases fills with
    | omitted h => exact .inr ⟨h, rfl⟩
    | given h read => exact .inl ⟨_, h, read⟩
  · rcases supplied with ⟨node, h, read⟩ | ⟨h, rfl⟩
    · exact ⟨some a, .given h read, rfl⟩
    · exact ⟨none, .omitted h, rfl⟩

/-- A part is given once at most. -/
theorem Fills.length_valuesOf_le {members : List (String × Node)}
    (h : Fills reader names members before after) : (valuesOf names members).length ≤ 1 := by
  cases h with
  | omitted h | given h => simp [h]

end

/-! ## Records whose members stand in any order -/

section
variable {ι : Type} {β : ι → Type}

/-- A record of parts. Each is what the members of its names write, once, and members of other names
are passed over. -/
structure IsRecord (field : String → σ → FieldStep σ) (names : ι → List String)
    (reader : (i : ι) → Node → Except ReadError (β i)) (slot : (i : ι) → σ → Option (β i)) :
    Prop where
  disjoint : ∀ {i j name}, name ∈ names i → name ∈ names j → i = j
  own : ∀ {i name s node s'}, name ∈ names i → (field name s).run s node = .ok s' →
    slot i s = none ∧ ∃ b, reader i node = .ok b ∧ slot i s' = some b
  takes : ∀ {i name s node b}, name ∈ names i → slot i s = none → reader i node = .ok b →
    ∃ s', (field name s).run s node = .ok s'
  other : ∀ {i name s node s'}, name ∉ names i → (field name s).run s node = .ok s' →
    slot i s' = slot i s
  passes : ∀ {name s}, (∀ i, name ∉ names i) → field name s = .pass

variable {field : String → σ → FieldStep σ} {names : ι → List String}
  {reader : (i : ι) → Node → Except ReadError (β i)} {slot : (i : ι) → σ → Option (β i)}
  {members : List (String × Node)} {s t : σ}

/-- An object that gives each part once at most is read, and each part holds what it was given. -/
theorem IsRecord.exists_readFields (h : IsRecord field names reader slot)
    {after : (i : ι) → Option (β i)}
    (fills : ∀ i, Fills (reader i) (names i) members (slot i s) (after i))
    (passed : ∀ member ∈ members, member.2.pass = .ok ()) :
    ∃ t, (Members.ofList members).readFields field s = .ok t ∧ ∀ i, slot i t = after i := by
  induction members generalizing s with
  | nil => exact ⟨s, rfl, fun i => (fills i).eq_of_nil.symm⟩
  | cons member rest ih =>
    obtain ⟨name, node⟩ := member
    obtain ⟨pass, passed⟩ := List.forall_mem_cons.1 passed
    -- What is left for the members after this one, whichever part it writes.
    obtain ⟨s', hrun, hs'⟩ : ∃ s', (field name s).run s node = .ok s' ∧
        ∀ i, Fills (reader i) (names i) rest (slot i s') (after i) := by
      by_cases hname : ∃ i, name ∈ names i
      · obtain ⟨i, hi⟩ := hname
        obtain ⟨free, b, hb, hrest⟩ := (Fills.cons_mem_iff hi).1 (fills i)
        obtain ⟨s', hrun⟩ := h.takes hi free hb
        refine ⟨s', hrun, fun j => ?_⟩
        by_cases hj : name ∈ names j
        · obtain rfl := h.disjoint hi hj
          obtain ⟨-, b', hb', hslot⟩ := h.own hi hrun
          rw [hslot, Except.ok.inj (hb'.symm.trans hb)]
          exact hrest
        · rw [h.other hj hrun]
          exact (Fills.cons_notMem_iff hj).1 (fills j)
      · rw [not_exists] at hname
        refine ⟨s, ?_, fun i => (Fills.cons_notMem_iff (hname i)).1 (fills i)⟩
        rw [h.passes hname]
        exact FieldStep.run_pass_eq_ok_iff.2 ⟨pass, rfl⟩
    obtain ⟨t, hread, ht⟩ := ih hs' passed
    exact ⟨t, Members.readFields_cons_eq_ok_iff.2 ⟨name, s', rfl, hrun, hread⟩, ht⟩

/-- An object that is read gives each part once at most, and each part holds what it was given. -/
theorem IsRecord.fills_of_readFields (h : IsRecord field names reader slot)
    (read : (Members.ofList members).readFields field s = .ok t) (i : ι) :
    Fills (reader i) (names i) members (slot i s) (slot i t) := by
  induction members generalizing s with
  | nil =>
    cases read
    exact .omitted rfl
  | cons member rest ih =>
    obtain ⟨name, node⟩ := member
    obtain ⟨_, s', ⟨⟩, hrun, hrest⟩ := Members.readFields_cons_eq_ok_iff.1 read
    have later := ih hrest
    by_cases hname : name ∈ names i
    · obtain ⟨free, b, hb, filled⟩ := h.own hname hrun
      rw [filled] at later
      exact (Fills.cons_mem_iff hname).2 ⟨free, b, hb, later⟩
    · rw [h.other hname hrun] at later
      exact (Fills.cons_notMem_iff hname).2 later

/-- An object is read into parts that hold nothing exactly if it supplies each of them. -/
theorem IsRecord.exists_readFields_iff (h : IsRecord field names reader slot)
    (empty : ∀ i, slot i s = none) (passed : ∀ member ∈ members, member.2.pass = .ok ())
    {default held : (i : ι) → β i} :
    (∃ t, (Members.ofList members).readFields field s = .ok t ∧
        ∀ i, (slot i t).getD (default i) = held i) ↔
      ∀ i, Supplies (reader i) (names i) (default i) members (held i) := by
  refine ⟨fun ⟨t, read, holds⟩ i => ?_, fun supplied => ?_⟩
  · have fills := h.fills_of_readFields read i
    rw [empty i] at fills
    exact exists_fills_iff_supplies.1 ⟨slot i t, fills, holds i⟩
  · choose after fills holds using fun i => exists_fills_iff_supplies.2 (supplied i)
    obtain ⟨t, read, ht⟩ := h.exists_readFields (fun i => (empty i).symm ▸ fills i) passed
    exact ⟨t, read, fun i => by rw [ht i, holds i]⟩

end

end QueryPipeline.Json
