import QueryPipeline.Proofs.Value.Members

/-!
# Values further out

A value that is read where few levels may still be entered is read the same where more may be
(`Deepens`). So what a document inside a text is read as it is read as on its own, where it stands
less deep (`readDocument_deepens`).
-/

namespace QueryPipeline

open Json

variable {α β σ : Type}

/-- A reader that reads the same where one more level may be entered. -/
def Deepens (reader : Reader α) : Prop :=
  ∀ room node a, reader room node = .ok a → reader (room + 1) node = .ok a

/-! ## Readers of any level -/

/-- A text is read at any level. -/
theorem readText_room (room room' : Nat) (node : Node) :
    readText room node = readText room' node := by
  cases node <;> rfl

/-- A whole number is read at any level. -/
theorem readWhole_room (low high : Int) (expected : String) (room room' : Nat) (node : Node) :
    readWhole low high expected room node = readWhole low high expected room' node := by
  cases node <;> rfl

/-- A reader that does not look at the level. -/
theorem Deepens.of_room {reader : Reader α}
    (h : ∀ room room' node, reader room node = reader room' node) : Deepens reader :=
  fun _ _ _ read => (h _ _ _).trans read

/-- What is made of a value that was read. -/
theorem Deepens.bind {reader : Reader α} (h : Deepens reader) (f : α → Except ReadError β) :
    Deepens fun room node => reader room node >>= f := by
  intro room node b hb
  obtain ⟨a, ha, hf⟩ := bind_eq_ok_iff.1 hb
  exact bind_eq_ok_iff.2 ⟨a, h _ _ _ ha, hf⟩

/-- A value of another type that holds what was read. -/
theorem Deepens.map {reader : Reader α} (h : Deepens reader) (f : α → β) :
    Deepens fun room node => f <$> reader room node := by
  intro room node b hb
  obtain ⟨a, ha, hf⟩ := map_eq_ok_iff.1 hb
  exact map_eq_ok_iff.2 ⟨a, h _ _ _ ha, hf⟩

/-! ## Records -/

/-- Members are read the same by steps that read each of them the same. -/
theorem Json.Members.readFields_mono {field field' : String → σ → FieldStep σ}
    (step : ∀ name s node s', (field name s).run s node = .ok s' →
      (field' name s).run s node = .ok s') :
    ∀ {members : Members} {s t : σ}, members.readFields field s = .ok t →
      members.readFields field' s = .ok t
  | .closed, _, _, hread => hread
  | .cut _, _, _, hread | .unnamed _, _, _, hread => by cases hread
  | .cons key value tail, s, t, hread => by
    obtain ⟨name, s', hkey, hrun, hread⟩ := Members.readFields_cons_eq_ok_iff.1 hread
    exact Members.readFields_cons_eq_ok_iff.2
      ⟨name, s', hkey, step name s value s' hrun, readFields_mono step hread⟩

/-- A record whose parts are read the same is. -/
theorem Deepens.record {expected : String}
    {byOrder : Nat → Items → Except ReadError (α × Items)}
    {byName : Nat → Members → Except ReadError α}
    (order : ∀ {room items a}, byOrder room items = .ok a → byOrder (room + 1) items = .ok a)
    (name : ∀ {room members a}, byName room members = .ok a → byName (room + 1) members = .ok a) :
    Deepens (readRecord expected byOrder byName) := by
  intro room node a hread
  obtain ⟨inner, rfl⟩ := exists_room_of_readRecord hread
  rcases readRecord_eq_ok_iff.1 hread with ⟨items, rest, rfl, hparts, hend⟩ | ⟨members, rfl, hparts⟩
  · exact readRecord_eq_ok_iff.2 (.inl ⟨items, rest, rfl, order hparts, hend⟩)
  · exact readRecord_eq_ok_iff.2 (.inr ⟨members, rfl, name hparts⟩)

/-- A field by order that is read the same. -/
theorem Json.Items.nextOrRefuse_deepens {reader : Reader α} (h : Deepens reader)
    {missing : Mismatch} {room : Nat} {items : Items} {a : α × Items}
    (hread : items.nextOrRefuse missing (reader room) = .ok a) :
    items.nextOrRefuse missing (reader (room + 1)) = .ok a := by
  obtain ⟨a, rest⟩ := a
  obtain ⟨head, rfl, hhead⟩ := nextOrRefuse_eq_ok_iff.1 hread
  exact nextOrRefuse_eq_ok_iff.2 ⟨head, rfl, h _ _ _ hhead⟩

/-- A field that may be given once is read the same. -/
theorem Json.FieldStep.run_once_map_deepens {reader : Reader α} (h : Deepens reader)
    {present : Option β} {name : String} {write : α → σ} {room : Nat} {s s' : σ} {node : Node}
    (hrun : (FieldStep.once present name fun node => (reader room node).map write).run s node =
      .ok s') :
    (FieldStep.once present name fun node => (reader (room + 1) node).map write).run s node =
      .ok s' := by
  cases present with
  | some b => cases hrun
  | none =>
    obtain ⟨a, ha, hwrite⟩ := map_eq_ok_iff.1 hrun
    exact map_eq_ok_iff.2 ⟨a, h _ _ _ ha, hwrite⟩

/-- A pair of fields that are read the same. -/
theorem readPair_deepens {expected first second : String} {readFirst : Reader α}
    {readSecond : Reader β} (hfirst : Deepens readFirst) (hsecond : Deepens readSecond) :
    Deepens (readPair expected first second readFirst readSecond) := by
  refine Deepens.record (fun hparts => ?_) fun hparts => ?_
  · simp only [bind_eq_ok_iff] at hparts ⊢
    obtain ⟨⟨a, items⟩, ha, ⟨b, rest⟩, hb, hpair⟩ := hparts
    exact ⟨(a, items), Items.nextOrRefuse_deepens hfirst ha, (b, rest),
      Items.nextOrRefuse_deepens hsecond hb, hpair⟩
  · simp only [bind_eq_ok_iff] at hparts ⊢
    obtain ⟨s, hs, hpair⟩ := hparts
    refine ⟨s, Members.readFields_mono (fun name s node s' hrun => ?_) hs, hpair⟩
    split at hrun
    next h =>
      rw [if_pos h]
      exact FieldStep.run_once_map_deepens hfirst hrun
    next h =>
      split at hrun
      next h' =>
        rw [if_neg h, if_pos h']
        exact FieldStep.run_once_map_deepens hsecond hrun
      next => cases hrun

/-- A single field that is read the same. -/
theorem readSingle_deepens {expected name : String} {reader : Reader α} (h : Deepens reader) :
    Deepens (readSingle expected name reader) := by
  refine Deepens.record (fun hparts => Items.nextOrRefuse_deepens h hparts) fun hparts => ?_
  simp only [bind_eq_ok_iff] at hparts ⊢
  obtain ⟨s, hs, hsingle⟩ := hparts
  refine ⟨s, Members.readFields_mono (fun key s node s' hrun => ?_) hs, hsingle⟩
  split at hrun
  next hkey =>
    rw [if_pos hkey]
    exact FieldStep.run_once_map_deepens h hrun
  next => cases hrun

/-! ## Bodies of typed values -/

/-- A text that is turned into a value is read at any level. -/
theorem readTextAs_room (ofText? : String → Option α) (expected : String) (room room' : Nat)
    (node : Node) :
    readTextAs ofText? expected room node = readTextAs ofText? expected room' node := by
  rw [readTextAs, readTextAs, readText_room room room']

/-- An identifier is read the same. -/
theorem readObjectId_deepens : Deepens readObjectId := by
  intro room node a h
  cases node with
  | array | object => cases room <;> cases h
  | string s =>
    cases room <;> exact h
  | _ => cases room <;> exact h

/-- A single text is read the same where its record can be entered. -/
theorem readSingle_readText_succ {expected name : String} {room : Nat} {node : Node}
    (h : node.check room = .ok ()) :
    readSingle expected name readText (room + 1) node =
      readSingle expected name readText room node := by
  cases room with
  | zero => cases node <;> first | rfl | cases h
  | succ room =>
    have htext : readText (room + 1) = readText room := funext fun _ => readText_room _ _ _
    unfold readSingle readRecord
    cases node <;> simp only [htext]

/-- The form of a moment is settled where the value can be entered. -/
theorem momentForm?_succ {room : Nat} {node : Node} (h : node.check room = .ok ()) :
    momentForm? (room + 1) node = momentForm? room node := by
  rw [momentForm?, momentForm?, readSingle_readText_succ h, readText_room (room + 1) room,
    readWhole_room _ _ _ (room + 1) room]

mutual

/-- A value that can be entered can be entered further out. -/
theorem Json.Node.check_succ : ∀ {node : Node} {room : Nat}, node.check room = .ok () →
    node.check (room + 1) = .ok ()
  | .absent _, _, h | .misspelled _, _, h => by cases h
  | .null, _, _ | .boolean _, _, _ => by rw [Node.check]
  | .number _, _, h | .string _, _, h => by
    rw [Node.check] at h ⊢
    exact h
  | .array _, 0, h | .object _, 0, h => by cases h
  | .array items, room + 1, h => by
    rw [Node.check] at h ⊢
    exact Items.check_succ h
  | .object members, room + 1, h => by
    rw [Node.check] at h ⊢
    exact Members.check_succ h

/-- Elements that can be entered can be entered further out. -/
theorem Json.Items.check_succ : ∀ {items : Items} {room : Nat}, items.check room = .ok () →
    items.check (room + 1) = .ok ()
  | .closed, _, _ => rfl
  | .cut _, _, h => by cases h
  | .cons head tail, room, h => by
    rw [Items.check] at h ⊢
    obtain ⟨_, hhead, htail⟩ := bind_eq_ok_iff.1 h
    exact bind_eq_ok_iff.2 ⟨(), Node.check_succ hhead, Items.check_succ htail⟩

/-- Members that can be entered can be entered further out. -/
theorem Json.Members.check_succ : ∀ {members : Members} {room : Nat}, members.check room = .ok () →
    members.check (room + 1) = .ok ()
  | .closed, _, _ => rfl
  | .cut _, _, h | .unnamed _, _, h => by cases h
  | .cons key value tail, room, h => by
    rw [Members.check] at h ⊢
    obtain ⟨name, hname, h⟩ := bind_eq_ok_iff.1 h
    obtain ⟨_, hvalue, htail⟩ := bind_eq_ok_iff.1 h
    exact bind_eq_ok_iff.2 ⟨name, hname,
      bind_eq_ok_iff.2 ⟨(), Node.check_succ hvalue, Members.check_succ htail⟩⟩

end

/-- A moment is read the same. -/
theorem readMoment_deepens : Deepens readMoment := by
  intro room node a h
  obtain ⟨_, hcheck, h⟩ := bind_eq_ok_iff.1 h
  refine bind_eq_ok_iff.2 ⟨(), Node.check_succ hcheck, ?_⟩
  rw [momentForm?_succ hcheck]
  exact h

/-- Bytes are read the same. -/
theorem readBytes_deepens : Deepens readBytes := by
  intro room node a h
  cases node with
  | array items =>
    cases room with
    | zero => cases h
    | succ room =>
      have hwhole : readWhole 0 255 "u8" (room + 1) = readWhole 0 255 "u8" room :=
        funext fun _ => readWhole_room _ _ _ _ _ _
      rw [readBytes] at h ⊢
      rw [hwhole]
      exact h
  | _ => cases room <;> exact h

/-- A number of 32 bits is read at any level. -/
theorem readWord_room (room room' : Nat) (node : Node) :
    readWord room node = readWord room' node := by
  rw [readWord, readWord, readWhole_room _ _ _ room room']

/-- Every body that a key announces is read the same. -/
theorem typedReader?_deepens {name : String} {reader : Reader Value}
    (h : typedReader? name = some reader) : Deepens reader := by
  have text : Deepens readText := .of_room readText_room
  have word : Deepens readWord := .of_room readWord_room
  unfold typedReader? at h
  split at h
  case h_1 =>
    cases h
    exact readObjectId_deepens.map Value.objectId
  case h_2 =>
    cases h
    exact text.map Value.symbol
  case h_3 | h_4 | h_5 | h_15 =>
    cases h
    exact Deepens.map (.of_room (readTextAs_room _ _)) _
  case h_6 =>
    cases h
    exact (readPair_deepens text text).bind _
  case h_7 =>
    cases h
    exact text.bind _
  case h_8 =>
    cases h
    exact (readPair_deepens word word).bind _
  case h_9 =>
    cases h
    exact (readPair_deepens text text).bind _
  case h_10 =>
    cases h
    exact (readPair_deepens text (readSingle_deepens text)).bind _
  case h_11 =>
    cases h
    exact readMoment_deepens
  case h_12 | h_13 =>
    cases h
    exact Deepens.bind (.of_room (readWhole_room _ _ _)) _
  case h_14 =>
    cases h
    refine .of_room fun _ _ node => ?_
    cases node with
    | boolean b => cases b <;> rfl
    | _ => rfl
  case h_16 =>
    cases h
    exact readBytes_deepens.bind _
  case h_17 => cases h

/-! ## Values -/

mutual

/-- A value is read the same further out. -/
theorem readValue_succ : ∀ {node : Node} {room : Nat} {v : Value}, readValue room node = .ok v →
    readValue (room + 1) node = .ok v
  | .absent _, _, _, h | .misspelled _, _, _, h => by cases h
  | .null, _, _, h | .boolean _, _, _, h | .number _, _, _, h | .string _, _, _, h => by
    rw [readValue] at h ⊢
    exact h
  | .array _, 0, _, h | .object _, 0, _, h => by cases h
  | .array items, room + 1, v, h => by
    rw [readValue] at h ⊢
    split at h
    next values hvalues =>
      rw [readElements_succ hvalues]
      exact h
    next => cases h
  | .object members, room + 1, v, h => by
    rw [readValue] at h ⊢
    exact readMembers_succ h

/-- The elements of an array are read the same further out. -/
theorem readElements_succ : ∀ {items : Items} {room : Nat} {values : List Value},
    readElements room items = .ok values → readElements (room + 1) items = .ok values
  | .closed, _, _, h => by
    rw [readElements] at h ⊢
    exact h
  | .cut _, _, _, h => by cases h
  | .cons head tail, room, values, h => by
    rw [readElements] at h ⊢
    split at h
    next => cases h
    next v hv =>
      split at h
      next => cases h
      next rest hrest =>
        rw [readValue_succ hv, readElements_succ hrest]
        exact h

/-- The members of an object are read the same further out. -/
theorem readMembers_succ : ∀ {members : Members} {room : Nat} {entries : Document} {v : Value},
    readMembers room entries members = .ok v → readMembers (room + 1) entries members = .ok v
  | .closed, _, _, _, h => by
    rw [readMembers] at h ⊢
    exact h
  | .cut _, _, _, _, h | .unnamed _, _, _, _, h => by cases h
  | .cons key value tail, room, _, v, h =>
    readMembers_cons_eq_ok_iff.2 <|
      match key, tail, v, readMembers_cons_eq_ok_iff.1 h with
      | _, _, _, .code source => .code (readText_room (room + 1) room value ▸ source)
      | _, .cons _ value' _, _, .codeFirst source bindings =>
        .codeFirst (readText_room (room + 1) room value ▸ source) (readScope_succ bindings)
      | _, .cons _ value' _, _, .scopeFirst bindings source =>
        .scopeFirst (readScope_succ bindings) (readText_room (room + 1) room value' ▸ source)
      | _, _, _, .typed code scope announced read =>
        .typed code scope announced (typedReader?_deepens announced _ _ _ read)
      | _, _, _, .entry code scope plain read rest =>
        .entry code scope plain (readValue_succ read) (readMembers_succ rest)

/-- The scope of a code value is read the same further out. -/
theorem readScope_succ : ∀ {node : Node} {room : Nat} {d : Document},
    readScope room node = .ok d → readScope (room + 1) node = .ok d
  | .object _, _, _, h => by
    obtain ⟨inner, members, v, rfl, ⟨⟩, hv, hd⟩ := readScope_eq_ok_iff.1 h
    exact readScope_eq_ok_iff.2 ⟨inner + 1, _, v, rfl, rfl, readMembers_succ hv, hd⟩
  | .absent _, _, _, h | .misspelled _, _, _, h | .null, _, _, h | .boolean _, _, _, h
  | .number _, _, _, h | .string _, _, _, h | .array _, _, _, h => by
    obtain ⟨_, _, _, -, ⟨⟩, -⟩ := readScope_eq_ok_iff.1 h

end

/-- A document is read the same further out. -/
theorem readDocument_deepens : Deepens readDocument :=
  fun _ _ _ => readScope_succ

end QueryPipeline
