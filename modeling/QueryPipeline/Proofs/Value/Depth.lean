import QueryPipeline.Proofs.Json.Write
import QueryPipeline.Proofs.Value.Members

/-!
# How deep a reader goes

A reader enters no more arrays and objects than it is allowed to. So a tree that is read as a value,
of which nothing is passed over, does not nest deeper than that (`Bounds`): typed values enter what
they are made of as arrays and documents do (`typedReader?_bounds`, `readDocument_depth_le`).
-/

namespace QueryPipeline

open Json

/-! ## How deep a tree nests -/

mutual

/-- The number of arrays and objects that a tree nests. -/
def Json.Node.depth : Node → Nat
  | .array items => items.depth + 1
  | .object members => members.depth + 1
  | _ => 0

/-- The number of arrays and objects that the elements of an array nest. -/
def Json.Items.depth : Items → Nat
  | .cons head tail => max head.depth tail.depth
  | _ => 0

/-- The number of arrays and objects that the members of an object nest. -/
def Json.Members.depth : Members → Nat
  | .cons _ value tail => max value.depth tail.depth
  | _ => 0

end

/-- An object of one member nests one level more than the member. -/
@[simp] theorem Json.Node.depth_single (name : String) (node : Node) :
    (Node.single name node).depth = node.depth + 1 := by
  simp [Node.single, Members.ofList, Node.depth, Members.depth]

/-- An object of two members nests one level more than the deeper one. -/
@[simp] theorem Json.Node.depth_pair (name other : String) (node next : Node) :
    (Node.object (.ofList [(name, node), (other, next)])).depth = max node.depth next.depth + 1 := by
  simp [Members.ofList, Node.depth, Members.depth]

/-- A text nests nothing. -/
@[simp] theorem Json.Node.depth_ofText (text : String) : (Node.ofText text).depth = 0 :=
  rfl

/-- A number nests nothing. -/
@[simp] theorem Json.Node.depth_number (n : Numeral) : (Node.number n).depth = 0 :=
  rfl

/-! ## Readers that see all of a tree -/

variable {α β σ : Type}

/-- A reader that enters every array and object of what it reads. -/
def Bounds (reader : Reader α) : Prop :=
  ∀ room node a, reader room node = .ok a → node.depth ≤ room

/-- A value that is made of what was read. -/
theorem Bounds.bind {reader : Reader α} (h : Bounds reader) (f : α → Except ReadError β) :
    Bounds fun room node => reader room node >>= f := by
  intro room node b hb
  obtain ⟨a, ha, -⟩ := bind_eq_ok_iff.1 hb
  exact h _ _ _ ha

/-- A value of another type that holds what was read. -/
theorem Bounds.map {reader : Reader α} (h : Bounds reader) (f : α → β) :
    Bounds fun room node => f <$> reader room node := by
  intro room node b hb
  obtain ⟨a, ha, -⟩ := map_eq_ok_iff.1 hb
  exact h _ _ _ ha

/-- A text nests nothing where it is read. -/
theorem readText_bounds : Bounds readText := by
  intro room node text h
  unfold readText at h
  split at h
  · exact Nat.zero_le _
  · exact absurd h wrongKind_ne_ok

/-- A whole number nests nothing where it is read. -/
theorem readWhole_bounds (low high : Int) (expected : String) :
    Bounds (readWhole low high expected) := by
  intro room node n h
  obtain ⟨numeral, rfl, -⟩ := readWhole_eq_ok_iff.1 h
  exact Nat.zero_le _

/-! ## Records -/

/-- Members that are read nest no deeper than each of them where it is read. -/
theorem Json.Members.depth_le_of_readFields {field : String → σ → FieldStep σ} {room : Nat}
    (step : ∀ name s node s', (field name s).run s node = .ok s' → node.depth ≤ room) :
    ∀ {members : Members} {s t : σ}, members.readFields field s = .ok t → members.depth ≤ room
  | .closed, _, _, _ => Nat.zero_le _
  | .cut _, _, _, h | .unnamed _, _, _, h => by cases h
  | .cons key value tail, s, t, h => by
    obtain ⟨name, s', -, hrun, hread⟩ := Members.readFields_cons_eq_ok_iff.1 h
    rw [Members.depth]
    exact Nat.max_le.2 ⟨step name s value s' hrun, depth_le_of_readFields step hread⟩

/-- Elements of which nothing is left over nest nothing. -/
theorem Json.Items.depth_of_finish {items : Items} (h : items.finish = .ok ()) : items.depth = 0 := by
  cases items with
  | closed => rfl
  | cut | cons => cases h

/-- A record whose parts are bounded is. -/
theorem Bounds.record {expected : String} {byOrder : Nat → Items → Except ReadError (α × Items)}
    {byName : Nat → Members → Except ReadError α}
    (order : ∀ {room items a rest}, byOrder room items = .ok (a, rest) → rest.depth ≤ room →
      items.depth ≤ room)
    (name : ∀ {room members a}, byName room members = .ok a → members.depth ≤ room) :
    Bounds (readRecord expected byOrder byName) := by
  intro room node a hread
  obtain ⟨inner, rfl⟩ := exists_room_of_readRecord hread
  rcases readRecord_eq_ok_iff.1 hread with ⟨items, rest, rfl, hparts, hend⟩ | ⟨members, rfl, hparts⟩
  · rw [Node.depth]
    exact Nat.succ_le_succ (order hparts (Items.depth_of_finish hend ▸ Nat.zero_le _))
  · rw [Node.depth]
    exact Nat.succ_le_succ (name hparts)

/-- Elements of which the first is read as a field by order. -/
theorem Json.Items.depth_le_of_nextOrRefuse {reader : Reader α} (h : Bounds reader)
    {missing : Mismatch} {room : Nat} {items rest : Items} {a : α}
    (hread : items.nextOrRefuse missing (reader room) = .ok (a, rest)) (hrest : rest.depth ≤ room) :
    items.depth ≤ room := by
  obtain ⟨head, rfl, hhead⟩ := nextOrRefuse_eq_ok_iff.1 hread
  rw [Items.depth]
  exact Nat.max_le.2 ⟨h _ _ _ hhead, hrest⟩

/-- A field that may be given once. -/
theorem Json.FieldStep.depth_le_of_run_once {reader : Reader α} (h : Bounds reader)
    {present : Option β} {name : String} {write : α → σ} {room : Nat} {s s' : σ} {node : Node}
    (hrun : (FieldStep.once present name fun node => (reader room node).map write).run s node =
      .ok s') : node.depth ≤ room := by
  cases present with
  | some b => cases hrun
  | none =>
    obtain ⟨a, ha, -⟩ := map_eq_ok_iff.1 hrun
    exact h _ _ _ ha

/-- A pair of fields that are bounded. -/
theorem readPair_bounds {expected first second : String} {readFirst : Reader α}
    {readSecond : Reader β} (hfirst : Bounds readFirst) (hsecond : Bounds readSecond) :
    Bounds (readPair expected first second readFirst readSecond) := by
  refine Bounds.record (fun hparts hrest => ?_) fun hparts => ?_
  · simp only [bind_eq_ok_iff] at hparts
    obtain ⟨⟨a, items⟩, ha, ⟨b, rest⟩, hb, ⟨⟩⟩ := hparts
    exact Items.depth_le_of_nextOrRefuse hfirst ha (Items.depth_le_of_nextOrRefuse hsecond hb hrest)
  · simp only [bind_eq_ok_iff] at hparts
    obtain ⟨s, hs, -⟩ := hparts
    refine Members.depth_le_of_readFields (fun name s node s' hrun => ?_) hs
    split at hrun
    next => exact FieldStep.depth_le_of_run_once hfirst hrun
    next =>
      split at hrun
      next => exact FieldStep.depth_le_of_run_once hsecond hrun
      next => cases hrun

/-- A single field that is bounded. -/
theorem readSingle_bounds {expected name : String} {reader : Reader α} (h : Bounds reader) :
    Bounds (readSingle expected name reader) := by
  refine Bounds.record (fun hparts hrest => Items.depth_le_of_nextOrRefuse h hparts hrest)
    fun hparts => ?_
  simp only [bind_eq_ok_iff] at hparts
  obtain ⟨s, hs, -⟩ := hparts
  refine Members.depth_le_of_readFields (fun key s node s' hrun => ?_) hs
  split at hrun
  next => exact FieldStep.depth_le_of_run_once h hrun
  next => cases hrun

/-! ## Bodies of typed values -/

/-- A text that is turned into a value nests nothing. -/
theorem readTextAs_bounds (ofText? : String → Option α) (expected : String) :
    Bounds (readTextAs ofText? expected) :=
  readText_bounds.bind _

/-- An identifier nests nothing. -/
theorem readObjectId_bounds : Bounds readObjectId := by
  intro room node a h
  unfold readObjectId at h
  split at h
  · cases h
  · cases h
  · exact Nat.zero_le _
  · exact absurd h wrongKind_ne_ok

mutual

/-- A value that was checked nests no deeper than it could be entered. -/
theorem Json.Node.depth_le_of_check : ∀ {node : Node} {room : Nat}, node.check room = .ok () →
    node.depth ≤ room
  | .absent _, _, _ | .misspelled _, _, _ | .null, _, _ | .boolean _, _, _ | .number _, _, _
  | .string _, _, _ => Nat.zero_le _
  | .array _, 0, h | .object _, 0, h => by cases h
  | .array items, room + 1, h => by
    rw [Node.check] at h
    rw [Node.depth]
    exact Nat.succ_le_succ (Items.depth_le_of_check h)
  | .object members, room + 1, h => by
    rw [Node.check] at h
    rw [Node.depth]
    exact Nat.succ_le_succ (Members.depth_le_of_check h)

/-- Elements that were checked nest no deeper than they could be entered. -/
theorem Json.Items.depth_le_of_check : ∀ {items : Items} {room : Nat}, items.check room = .ok () →
    items.depth ≤ room
  | .closed, _, _ | .cut _, _, _ => Nat.zero_le _
  | .cons head tail, room, h => by
    rw [Items.check] at h
    obtain ⟨_, hhead, htail⟩ := bind_eq_ok_iff.1 h
    rw [Items.depth]
    exact Nat.max_le.2 ⟨Node.depth_le_of_check hhead, Items.depth_le_of_check htail⟩

/-- Members that were checked nest no deeper than they could be entered. -/
theorem Json.Members.depth_le_of_check : ∀ {members : Members} {room : Nat},
    members.check room = .ok () → members.depth ≤ room
  | .closed, _, _ | .cut _, _, _ | .unnamed _, _, _ => Nat.zero_le _
  | .cons key value tail, room, h => by
    rw [Members.check] at h
    obtain ⟨_, -, h⟩ := bind_eq_ok_iff.1 h
    obtain ⟨_, hvalue, htail⟩ := bind_eq_ok_iff.1 h
    rw [Members.depth]
    exact Nat.max_le.2 ⟨Node.depth_le_of_check hvalue, Members.depth_le_of_check htail⟩

end

/-- Elements that are all read nest no deeper than each of them where it is read. -/
theorem Json.Items.depth_le_of_readAll {reader : Reader α} (h : Bounds reader) {room : Nat} :
    ∀ {items : Items} {as : List α}, items.readAll (reader room) = .ok as → items.depth ≤ room
  | .closed, _, _ => Nat.zero_le _
  | .cut _, _, hread => by cases hread
  | .cons head tail, as, hread => by
    obtain ⟨a, ha, hread⟩ := bind_eq_ok_iff.1 hread
    obtain ⟨rest, hrest, -⟩ := bind_eq_ok_iff.1 hread
    rw [Items.depth]
    exact Nat.max_le.2 ⟨h _ _ _ ha, depth_le_of_readAll h hrest⟩

/-- Bytes nest one array at most. -/
theorem readBytes_bounds : Bounds readBytes := by
  intro room node a h
  unfold readBytes at h
  split at h
  · exact Nat.zero_le _
  · cases h
  · obtain ⟨numbers, hnumbers, -⟩ := bind_eq_ok_iff.1 h
    rw [Node.depth]
    exact Nat.succ_le_succ (Items.depth_le_of_readAll (readWhole_bounds _ _ _) hnumbers)
  · exact absurd h wrongKind_ne_ok

/-- Every body that a key announces is bounded. -/
theorem typedReader?_bounds {name : String} {reader : Reader Value}
    (h : typedReader? name = some reader) : Bounds reader := by
  have word : Bounds readWord := (readWhole_bounds _ _ _).bind _
  unfold typedReader? at h
  split at h
  case h_1 =>
    cases h
    exact readObjectId_bounds.map Value.objectId
  case h_2 =>
    cases h
    exact readText_bounds.map Value.symbol
  case h_3 | h_4 | h_5 | h_15 =>
    cases h
    exact (readTextAs_bounds _ _).map _
  case h_6 | h_9 =>
    cases h
    exact (readPair_bounds readText_bounds readText_bounds).bind _
  case h_7 =>
    cases h
    exact readText_bounds.bind _
  case h_8 =>
    cases h
    exact (readPair_bounds word word).bind _
  case h_10 =>
    cases h
    exact (readPair_bounds readText_bounds (readSingle_bounds readText_bounds)).bind _
  case h_11 =>
    cases h
    intro room node a read
    obtain ⟨_, hcheck, -⟩ := bind_eq_ok_iff.1 read
    exact Node.depth_le_of_check hcheck
  case h_12 | h_13 =>
    cases h
    exact (readWhole_bounds _ _ _).bind _
  case h_14 =>
    cases h
    intro room node a read
    unfold readUndefined at read
    split at read
    · exact Nat.zero_le _
    · exact Nat.zero_le _
    · exact absurd read wrongKind_ne_ok
  case h_16 =>
    cases h
    exact readBytes_bounds.bind _
  case h_17 => cases h

/-! ## Values -/

/-- Members of which the first is bounded and the rest are. -/
theorem Json.Members.depth_cons_le {key : Quoted} {value : Node} {tail : Members} {room : Nat}
    (hvalue : value.depth ≤ room) (htail : tail.depth ≤ room) :
    (Members.cons key value tail).depth ≤ room := by
  rw [Members.depth]
  exact Nat.max_le.2 ⟨hvalue, htail⟩

mutual

/-- A value that is read nests no deeper than it could be entered. -/
theorem readValue_depth_le : ∀ {node : Node} {room : Nat} {v : Value}, readValue room node = .ok v →
    node.depth ≤ room
  | .absent _, _, _, _ | .misspelled _, _, _, _ | .null, _, _, _ | .boolean _, _, _, _
  | .number _, _, _, _ | .string _, _, _, _ => Nat.zero_le _
  | .array _, 0, _, h | .object _, 0, _, h => by cases h
  | .array items, room + 1, v, h => by
    rw [readValue] at h
    rw [Node.depth]
    split at h
    next values hvalues => exact Nat.succ_le_succ (readElements_depth_le hvalues)
    next => cases h
  | .object members, room + 1, v, h => by
    rw [readValue] at h
    rw [Node.depth]
    exact Nat.succ_le_succ (readMembers_depth_le h)

/-- Elements of an array that are read nest no deeper than they could be entered. -/
theorem readElements_depth_le : ∀ {items : Items} {room : Nat} {values : List Value},
    readElements room items = .ok values → items.depth ≤ room
  | .closed, _, _, _ | .cut _, _, _, _ => Nat.zero_le _
  | .cons head tail, room, values, h => by
    rw [readElements] at h
    rw [Items.depth]
    split at h
    next => cases h
    next v hv =>
      split at h
      next => cases h
      next rest hrest => exact Nat.max_le.2 ⟨readValue_depth_le hv, readElements_depth_le hrest⟩

/-- Members of an object that are read nest no deeper than they could be entered. -/
theorem readMembers_depth_le : ∀ {members : Members} {room : Nat} {entries : Document} {v : Value},
    readMembers room entries members = .ok v → members.depth ≤ room
  | .closed, _, _, _, _ | .cut _, _, _, _, _ | .unnamed _, _, _, _, _ => Nat.zero_le _
  | .cons key _ tail, _, _, v, h =>
    match key, tail, v, readMembers_cons_eq_ok_iff.1 h with
    | _, _, _, .code source =>
      Members.depth_cons_le (readText_bounds _ _ _ source) (Nat.zero_le _)
    | _, .cons _ _ _, _, .codeFirst source bindings =>
      Members.depth_cons_le (readText_bounds _ _ _ source)
        (Members.depth_cons_le (readScope_depth_le bindings) (Nat.zero_le _))
    | _, .cons _ _ _, _, .scopeFirst bindings source =>
      Members.depth_cons_le (readScope_depth_le bindings)
        (Members.depth_cons_le (readText_bounds _ _ _ source) (Nat.zero_le _))
    | _, _, _, .typed _ _ announced read =>
      Members.depth_cons_le (typedReader?_bounds announced _ _ _ read) (Nat.zero_le _)
    | _, _, _, .entry _ _ _ read rest =>
      Members.depth_cons_le (readValue_depth_le read) (readMembers_depth_le rest)

/-- A scope that is read nests no deeper than it could be entered. -/
theorem readScope_depth_le : ∀ {node : Node} {room : Nat} {d : Document},
    readScope room node = .ok d → node.depth ≤ room
  | .object _, _, _, h => by
    obtain ⟨inner, members, v, rfl, ⟨⟩, hv, -⟩ := readScope_eq_ok_iff.1 h
    exact Nat.succ_le_succ (readMembers_depth_le hv)
  | .absent _, _, _, h | .misspelled _, _, _, h | .null, _, _, h | .boolean _, _, _, h
  | .number _, _, _, h | .string _, _, _, h | .array _, _, _, h => by
    obtain ⟨_, _, _, -, ⟨⟩, -⟩ := readScope_eq_ok_iff.1 h

end

/-- A document that is read nests no deeper than it could be entered. -/
theorem readDocument_depth_le {node : Node} {room : Nat} {d : Document}
    (h : readDocument room node = .ok d) : node.depth ≤ room :=
  readScope_depth_le h

end QueryPipeline
