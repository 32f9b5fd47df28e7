import QueryPipeline.Proofs.Json.Token

/-!
# Scanning follows the grammar

A text is scanned as the tree that it writes, and a tree without a fault is scanned from no other
texts (`spells_iff`). So a text is JSON exactly if nothing but spaces follows its first value and
the value can be passed over (`isJson_iff`). That what is scanned is written is shown by induction
on the steps of the scanner, the converse by recursion on the tree.
-/

namespace QueryPipeline.Json

/-! ## What passes -/

/-- The elements of an array pass exactly if each does. -/
theorem Items.pass_cons_eq_ok_iff {head : Node} {tail : Items} :
    (Items.cons head tail).pass = .ok () ↔ head.pass = .ok () ∧ tail.pass = .ok () := by
  rw [pass]
  cases head.pass <;> simp

/-- The members of an object pass exactly if the name and the value of each do. -/
theorem Members.pass_cons_eq_ok_iff {key : Quoted} {value : Node} {tail : Members} :
    (Members.cons key value tail).pass = .ok () ↔
      key.pass = .ok () ∧ value.pass = .ok () ∧ tail.pass = .ok () := by
  rw [pass]
  cases key.pass with
  | error => simp
  | ok =>
    cases value.pass <;> simp

/-! ## What was scanned -/

/-- A value that is read after spaces. -/
def SpellsAfterSpace (text : List Char) (node : Node) : Prop :=
  ∃ before piece, text = before ++ piece ∧ AllSpace before ∧ SpellsValue piece node

/-- A value that was scanned, with the spaces on both sides. -/
theorem Scan.Sound.exists_eq {text rest : List Char} {node : Node}
    (h : Scan.Sound SpellsAfterSpace Node.pass text (node, some rest)) (pass : node.pass = .ok ()) :
    ∃ before piece after, AllSpace before ∧ SpellsValue piece node ∧ AllSpace after ∧
      text = before ++ (piece ++ (after ++ skipSpace rest)) := by
  obtain ⟨_, _, rfl, ⟨before, piece, rfl, hbefore, spelled⟩, ⟨⟩⟩ := h pass
  obtain ⟨after, hafter, hrest⟩ := exists_eq_append_skipSpace rest
  exact ⟨before, piece, after, hbefore, spelled, hafter, by rw [List.append_assoc, ← hrest]⟩

/-- A name that was scanned up to its colon. -/
theorem exists_name_of_scanString {text rest next : List Char} {key : Quoted}
    (h : scanString text = (key, some rest)) (colon : skipSpace rest = ':' :: next)
    (pass : key.pass = .ok ()) {before : List Char} (hbefore : AllSpace before) :
    ∃ name, SpellsName name key ∧ before ++ '"' :: text = name ++ next := by
  have sound := scanString_sound text
  rw [h] at sound
  obtain ⟨piece, _, rfl, spelled, ⟨⟩⟩ := sound pass
  obtain ⟨after, hafter, hrest⟩ := exists_eq_append_skipSpace rest
  refine ⟨_, .mk hbefore spelled hafter, ?_⟩
  rw [hrest, colon]
  simp

mutual

/-- A value that is scanned is as the grammar has it. -/
theorem scanValue_sound : ∀ (steps : Nat) (text : List Char),
    (scanValue steps text).Sound SpellsAfterSpace Node.pass text
  | 0, _ => by
    intro pass
    cases pass
  | steps + 1, text => by
    suffices h : (scanValue (steps + 1) text).Sound SpellsValue Node.pass (skipSpace text) by
      intro pass
      obtain ⟨before, hbefore, htext⟩ := exists_eq_append_skipSpace text
      obtain ⟨piece, rest, hpiece, spelled, htail⟩ := h pass
      refine ⟨before ++ piece, rest, ?_, ⟨before, piece, rfl, hbefore, spelled⟩, htail⟩
      rw [List.append_assoc, ← hpiece, ← htext]
    unfold scanValue
    -- By the first character: none, a quote, a bracket, a brace, the letter of a word, and others.
    split
    next =>
      intro pass
      cases pass
    next rest htext =>
      rw [htext]
      exact (scanString_sound rest).map ['"'] Node.string (fun _ => id) fun _ _ => .string
    next rest htext =>
      rw [htext]
      split
      next rest' hrest =>
        intro _
        obtain ⟨space, hspace, hsplit⟩ := exists_eq_append_skipSpace rest
        rw [hsplit, hrest]
        exact ⟨'[' :: (space ++ [']']), rest', by simp, .emptyArray hspace, rfl⟩
      next =>
        exact (scanItems_sound steps rest).map ['['] Node.array (fun _ => id) fun _ _ => .array
    next rest htext =>
      rw [htext]
      split
      next rest' hrest =>
        intro _
        obtain ⟨space, hspace, hsplit⟩ := exists_eq_append_skipSpace rest
        rw [hsplit, hrest]
        exact ⟨'\x7b' :: (space ++ ['\x7d']), rest', by simp, .emptyObject hspace, rfl⟩
      next =>
        exact (scanMembers_sound steps rest).map ['\x7b'] Node.object (fun _ => id)
          fun _ _ => .object
    next rest htext =>
      rw [htext]
      exact scanWord_spells .null rest
    next rest htext =>
      rw [htext]
      exact scanWord_spells .yes rest
    next rest htext =>
      rw [htext]
      exact scanWord_spells .no rest
    next c rest _ _ _ _ _ _ htext =>
      rw [htext]
      split
      next =>
        exact (scanNumber_sound (c :: rest)).map [] Node.number (fun _ => id) fun _ _ => .number
      next =>
        intro pass
        cases pass

/-- The elements of an array that are scanned are as the grammar has them. -/
theorem scanItems_sound : ∀ (steps : Nat) (text : List Char),
    (scanItems steps text).Sound SpellsItems Items.pass text
  | 0, _ => by
    intro pass
    cases pass
  | steps + 1, text => by
    intro pass
    have hvalue := scanValue_sound steps text
    unfold scanItems at pass ⊢
    cases hscan : scanValue steps text with
    | mk head tail =>
      rw [hscan] at hvalue pass
      cases tail with
      | none => cases (Items.pass_cons_eq_ok_iff.1 pass).2
      | some rest =>
        simp only at pass ⊢
        -- By what follows the element: the end, a comma, or a fault.
        split at pass
        next rest' hnext =>
          obtain ⟨before, piece, after, hbefore, spelled, hafter, rfl⟩ :=
            hvalue.exists_eq (Items.pass_cons_eq_ok_iff.1 pass).1
          rw [hnext]
          exact ⟨_, rest', by simp, .last hbefore spelled hafter, rfl⟩
        next rest' hnext =>
          obtain ⟨hhead, htail⟩ := Items.pass_cons_eq_ok_iff.1 pass
          obtain ⟨before, piece, after, hbefore, spelled, hafter, rfl⟩ := hvalue.exists_eq hhead
          obtain ⟨items, left, rfl, hitems, hend⟩ := scanItems_sound steps rest' htail
          rw [hnext]
          exact ⟨_, left, by simp, .cons hbefore spelled hafter hitems, hend⟩
        next => cases (Items.pass_cons_eq_ok_iff.1 pass).2
        next => cases (Items.pass_cons_eq_ok_iff.1 pass).2

/-- The members of an object that are scanned are as the grammar has them. -/
theorem scanMembers_sound : ∀ (steps : Nat) (text : List Char),
    (scanMembers steps text).Sound SpellsMembers Members.pass text
  | 0, _ => by
    intro pass
    cases pass
  | steps + 1, text => by
    intro pass
    obtain ⟨front, hfront, htext⟩ := exists_eq_append_skipSpace text
    unfold scanMembers at pass ⊢
    split at pass
    next rest hquote =>
      rw [hquote] at htext
      cases hstring : scanString rest with
      | mk key tail =>
        rw [hstring] at pass
        cases tail with
        | none => cases (Members.pass_cons_eq_ok_iff.1 pass).2.1
        | some rest' =>
          simp only at pass ⊢
          -- Only a colon may follow the name.
          split at pass
          next next hcolon =>
            have hvalue := scanValue_sound steps next
            cases hscan : scanValue steps next with
            | mk node tail =>
              rw [hscan] at hvalue pass
              cases tail with
              | none => cases (Members.pass_cons_eq_ok_iff.1 pass).2.2
              | some rest'' =>
                simp only at pass ⊢
                -- By what follows the value: the end, a comma, or a fault.
                split at pass
                next left hnext =>
                  obtain ⟨hkey, hnode, -⟩ := Members.pass_cons_eq_ok_iff.1 pass
                  obtain ⟨name, hname, hsplit⟩ :=
                    exists_name_of_scanString hstring hcolon hkey hfront
                  obtain ⟨before, piece, after, hbefore, spelled, hafter, rfl⟩ :=
                    hvalue.exists_eq hnode
                  rw [htext, hsplit, hnext]
                  exact ⟨_, left, by simp, .last hname hbefore spelled hafter, rfl⟩
                next following hnext =>
                  obtain ⟨hkey, hnode, htail⟩ := Members.pass_cons_eq_ok_iff.1 pass
                  obtain ⟨name, hname, hsplit⟩ :=
                    exists_name_of_scanString hstring hcolon hkey hfront
                  obtain ⟨before, piece, after, hbefore, spelled, hafter, rfl⟩ :=
                    hvalue.exists_eq hnode
                  obtain ⟨members, left, rfl, hmembers, hend⟩ :=
                    scanMembers_sound steps following htail
                  rw [htext, hsplit, hnext]
                  exact ⟨_, left, by simp, .cons hname hbefore spelled hafter hmembers, hend⟩
                next => cases (Members.pass_cons_eq_ok_iff.1 pass).2.2
                next => cases (Members.pass_cons_eq_ok_iff.1 pass).2.2
          next => cases (Members.pass_cons_eq_ok_iff.1 pass).2.1
          next => cases (Members.pass_cons_eq_ok_iff.1 pass).2.1
    next => cases pass

end

/-! ## What is written -/

/-- A number begins with its sign or with a digit. -/
theorem SpellsNumber.exists_cons {text : List Char} {n : Numeral} (h : SpellsNumber text n) :
    ∃ c rest, text = c :: rest ∧ (c = '-' ∨ c.isDigit = true) := by
  obtain ⟨hsign, hwhole, -, -, -⟩ := h
  cases hsign with
  | positive =>
    obtain ⟨digit, others, rfl⟩ := List.exists_cons_of_ne_nil hwhole.1
    exact ⟨digit, _, rfl, .inr (hwhole.2 digit (.head _))⟩
  | negative => exact ⟨'-', _, rfl, .inl rfl⟩

/-- A character that begins a number begins nothing else. -/
theorem ne_of_beginsNumber {c d : Char} (h : c = '-' ∨ c.isDigit = true)
    (other : ¬(d = '-' ∨ d.isDigit = true)) : c ≠ d := by
  rintro rfl
  exact other h

/-- A character that begins a number is no space. -/
theorem isSpace_of_beginsNumber {c : Char} (h : c = '-' ∨ c.isDigit = true) :
    isSpace c = false := by
  have spaces : ∀ d ∈ [' ', '\n', '\t', '\r'], ¬(d = '-' ∨ d.isDigit = true) := by simp
  have hne (d : Char) (hd : d ∈ [' ', '\n', '\t', '\r']) : c ≠ d :=
    ne_of_beginsNumber h (spaces d hd)
  simp [isSpace, hne]

/-- A value begins with neither a space nor a closing bracket. -/
theorem SpellsValue.exists_cons {piece : List Char} {node : Node} (h : SpellsValue piece node) :
    ∃ c rest, piece = c :: rest ∧ isSpace c = false ∧ c ≠ ']' := by
  cases h with
  | number h =>
    obtain ⟨c, rest, rfl, hc⟩ := h.exists_cons
    exact ⟨c, rest, rfl, isSpace_of_beginsNumber hc, ne_of_beginsNumber hc (by decide)⟩
  | _ => exact ⟨_, _, rfl, by decide, by decide⟩

/-- Spaces after a number end it, and so does what stands after them. -/
theorem EndsNumber.append_space {space rest : List Char} (h : AllSpace space)
    (hrest : EndsNumber rest) : EndsNumber (space ++ rest) := by
  cases space with
  | nil => exact hrest
  | cons c space =>
    rintro _ ⟨⟩
    have hc : isSpace c = true := h c (.head _)
    simp only [isSpace, Bool.or_eq_true, beq_iff_eq] at hc
    rcases hc with ((rfl | rfl) | rfl) | rfl <;> decide

/-- A comma, a bracket or a brace after spaces ends a number. -/
theorem EndsNumber.after {c : Char} {space : List Char} (h : AllSpace space)
    (hc : c ∈ [',', ']', '\x7d']) (rest : List Char) : EndsNumber (space ++ c :: rest) := by
  refine append_space h ?_
  rintro _ ⟨⟩
  simp only [List.mem_cons, List.not_mem_nil, or_false] at hc
  rcases hc with rfl | rfl | rfl <;> decide

section
variable {before rest : List Char}

/-- A number is scanned where one begins. -/
theorem scanValue_number {c : Char} (steps : Nat) (hbefore : AllSpace before)
    (h : c = '-' ∨ c.isDigit = true) :
    scanValue (steps + 1) (before ++ c :: rest) = (scanNumber (c :: rest)).map .number := by
  have others : ∀ d ∈ ['"', '[', '\x7b', 'n', 't', 'f'], ¬(d = '-' ∨ d.isDigit = true) := by simp
  have hne (d : Char) (hd : d ∈ ['"', '[', '\x7b', 'n', 't', 'f']) : c ≠ d :=
    ne_of_beginsNumber h (others d hd)
  rw [scanValue, skipSpace_append hbefore, skipSpace_cons (isSpace_of_beginsNumber h)]
  simp [hne, h]

/-- An array with an element is scanned where a bracket stands. -/
theorem scanValue_array {c : Char} {text tail : List Char} (steps : Nat) (hbefore : AllSpace before)
    (htext : skipSpace text = c :: tail) (hc : c ≠ ']') :
    scanValue (steps + 1) (before ++ '[' :: text) = (scanItems steps text).map .array := by
  rw [scanValue, skipSpace_append hbefore, skipSpace_cons (by decide)]
  simp [htext, hc]

/-- An object with a member is scanned where a brace stands. -/
theorem scanValue_object {c : Char} {text tail : List Char} (steps : Nat)
    (hbefore : AllSpace before) (htext : skipSpace text = c :: tail) (hc : c ≠ '\x7d') :
    scanValue (steps + 1) (before ++ '\x7b' :: text) = (scanMembers steps text).map .object := by
  rw [scanValue, skipSpace_append hbefore, skipSpace_cons (by decide)]
  simp [htext, hc]

end

/-- The elements of an array begin with no closing bracket. -/
theorem SpellsItems.exists_skipSpace_eq {text : List Char} {items : Items}
    (h : SpellsItems text items) (rest : List Char) :
    ∃ c tail, skipSpace (text ++ rest) = c :: tail ∧ c ≠ ']' := by
  have begins {before piece : List Char} {node : Node} (hbefore : AllSpace before)
      (h : SpellsValue piece node) (more : List Char) :
      ∃ c tail, skipSpace (before ++ (piece ++ more)) = c :: tail ∧ c ≠ ']' := by
    obtain ⟨c, others, rfl, hspace, hc⟩ := h.exists_cons
    exact ⟨c, others ++ more, by rw [skipSpace_append hbefore]; exact skipSpace_cons hspace, hc⟩
  cases h with
  | last hbefore h hafter | cons hbefore h hafter hrest =>
    rw [List.append_assoc, List.append_assoc]
    exact begins hbefore h _

/-- The members of an object begin with a quote. -/
theorem SpellsMembers.exists_skipSpace_eq {text : List Char} {members : Members}
    (h : SpellsMembers text members) (rest : List Char) :
    ∃ tail, skipSpace (text ++ rest) = '"' :: tail := by
  have begins {name : List Char} {key : Quoted} (h : SpellsName name key) (more : List Char) :
      ∃ tail, skipSpace (name ++ more) = '"' :: tail := by
    obtain ⟨hbefore, -, -⟩ := h
    rw [List.append_assoc, skipSpace_append hbefore]
    exact ⟨_, skipSpace_cons (by decide)⟩
  cases h with
  | last hname | cons hname =>
    rw [List.append_assoc]
    exact begins hname _

mutual

/-- A value that is written is scanned up to its end, in as many steps as twice its length. -/
theorem scanValue_of_spells : ∀ {node : Node} {before piece rest : List Char} {steps : Nat},
    AllSpace before → SpellsValue piece node → EndsNumber rest → 2 * piece.length ≤ steps + 1 →
    scanValue (steps + 1) (before ++ (piece ++ rest)) = (node, some rest)
  | .null, before, _, rest, steps, hbefore, .null, _, _ => by
    rw [scanValue, skipSpace_append hbefore]
    exact scanWord_append _ _ _
  | .boolean true, before, _, rest, steps, hbefore, .yes, _, _ => by
    rw [scanValue, skipSpace_append hbefore]
    exact scanWord_append _ _ _
  | .boolean false, before, _, rest, steps, hbefore, .no, _, _ => by
    rw [scanValue, skipSpace_append hbefore]
    exact scanWord_append _ _ _
  | .number n, before, piece, rest, steps, hbefore, .number h, hrest, _ => by
    have hscan := scanNumber_of_spells h hrest
    obtain ⟨c, others, rfl, hc⟩ := h.exists_cons
    rw [List.cons_append, scanValue_number steps hbefore hc, ← List.cons_append, hscan]
    rfl
  | .string s, before, _, rest, steps, hbefore, .string h, _, _ => by
    have hscan := scanString_of_spells h rest
    rw [scanValue, skipSpace_append hbefore, List.cons_append, skipSpace_cons (by decide)]
    simp only [hscan]
    rfl
  | .array .closed, before, _, rest, steps, hbefore, .emptyArray hspace, _, _ => by
    rw [scanValue, skipSpace_append hbefore, List.cons_append, skipSpace_cons (by decide)]
    rw [List.append_assoc]
    simp only [skipSpace_append hspace]
    rfl
  | .array items, before, _, rest, steps, hbefore, .array h, _, hsteps => by
    obtain ⟨c, tail, htail, hc⟩ := h.exists_skipSpace_eq rest
    obtain ⟨steps, rfl⟩ : ∃ k, steps = k + 1 := ⟨steps - 1, by simp at hsteps; omega⟩
    rw [List.cons_append, scanValue_array _ hbefore htail hc,
      scanItems_of_spells h (by simp at hsteps; omega)]
    rfl
  | .object .closed, before, _, rest, steps, hbefore, .emptyObject hspace, _, _ => by
    rw [scanValue, skipSpace_append hbefore, List.cons_append, skipSpace_cons (by decide)]
    rw [List.append_assoc]
    simp only [skipSpace_append hspace]
    rfl
  | .object members, before, _, rest, steps, hbefore, .object h, _, hsteps => by
    obtain ⟨tail, htail⟩ := h.exists_skipSpace_eq rest
    obtain ⟨steps, rfl⟩ : ∃ k, steps = k + 1 := ⟨steps - 1, by simp at hsteps; omega⟩
    rw [List.cons_append, scanValue_object _ hbefore htail (by decide),
      scanMembers_of_spells h (by simp at hsteps; omega)]
    rfl

/-- The elements of an array that are written are scanned up to the bracket. -/
theorem scanItems_of_spells : ∀ {items : Items} {text rest : List Char} {steps : Nat},
    SpellsItems text items → 2 * text.length ≤ steps + 1 →
    scanItems (steps + 1) (text ++ rest) = (items, some rest)
  | .cons head .closed, _, rest, steps, .last hbefore h hafter, hsteps => by
    obtain ⟨steps, rfl⟩ : ∃ k, steps = k + 1 := ⟨steps - 1, by simp at hsteps; omega⟩
    have hscan : scanValue (steps + 1) _ = _ :=
      scanValue_of_spells hbefore h (.after (c := ']') hafter (by decide) rest)
        (by simp at hsteps; omega)
    rw [scanItems]
    simp only [List.append_assoc, List.cons_append, List.nil_append, hscan,
      skipSpace_append hafter, skipSpace_cons (c := ']') (by decide)]
  | .cons head tail, _, rest, steps, .cons hbefore h hafter htail, hsteps => by
    obtain ⟨steps, rfl⟩ : ∃ k, steps = k + 1 := ⟨steps - 1, by simp at hsteps; omega⟩
    have hscan (more : List Char) : scanValue (steps + 1) _ = _ :=
      scanValue_of_spells hbefore h (.after (c := ',') hafter (by decide) more)
        (by simp at hsteps; omega)
    have hitems : scanItems (steps + 1) (_ ++ rest) = _ :=
      scanItems_of_spells htail (by simp at hsteps; omega)
    rw [scanItems]
    simp only [List.append_assoc, List.cons_append, hscan, skipSpace_append hafter,
      skipSpace_cons (c := ',') (by decide), hitems]
    rfl

/-- The members of an object that are written are scanned up to the brace. -/
theorem scanMembers_of_spells : ∀ {members : Members} {text rest : List Char} {steps : Nat},
    SpellsMembers text members → 2 * text.length ≤ steps + 1 →
    scanMembers (steps + 1) (text ++ rest) = (members, some rest)
  | .cons key value .closed, _, rest, steps,
      .last (.mk hfront hkey hmiddle) hbefore h hafter, hsteps => by
    obtain ⟨steps, rfl⟩ : ∃ k, steps = k + 1 := ⟨steps - 1, by simp at hsteps; omega⟩
    have hscan : scanValue (steps + 1) _ = _ :=
      scanValue_of_spells hbefore h (.after (c := '\x7d') hafter (by decide) rest)
        (by simp at hsteps; omega)
    rw [scanMembers]
    simp only [List.append_assoc, List.cons_append, List.nil_append, skipSpace_append hfront,
      skipSpace_cons (c := '"') (by decide), scanString_of_spells hkey, skipSpace_append hmiddle,
      skipSpace_cons (c := ':') (by decide), hscan, skipSpace_append hafter,
      skipSpace_cons (c := '\x7d') (by decide)]
  | .cons key value tail, _, rest, steps,
      .cons (.mk hfront hkey hmiddle) hbefore h hafter htail, hsteps => by
    obtain ⟨steps, rfl⟩ : ∃ k, steps = k + 1 := ⟨steps - 1, by simp at hsteps; omega⟩
    have hscan (more : List Char) : scanValue (steps + 1) _ = _ :=
      scanValue_of_spells hbefore h (.after (c := ',') hafter (by decide) more)
        (by simp at hsteps; omega)
    have hmembers : scanMembers (steps + 1) (_ ++ rest) = _ :=
      scanMembers_of_spells htail (by simp at hsteps; omega)
    rw [scanMembers]
    simp only [List.append_assoc, List.cons_append, List.nil_append, skipSpace_append hfront,
      skipSpace_cons (c := '"') (by decide), scanString_of_spells hkey, skipSpace_append hmiddle,
      skipSpace_cons (c := ':') (by decide), hscan, skipSpace_append hafter,
      skipSpace_cons (c := ',') (by decide), hmembers]
    rfl

end

/-! ## What is written passes -/

/-- A string of the grammar passes. -/
theorem SpellsString.pass {text : List Char} {s : Quoted} (h : SpellsString text s) :
    s.pass = .ok () := by
  obtain ⟨hpieces⟩ := h
  exact Quoted.pass_ofPieces_eq_ok_iff.2 hpieces.any_isControl

/-- The name of a member passes. -/
theorem SpellsName.pass {text : List Char} {key : Quoted} (h : SpellsName text key) :
    key.pass = .ok () := by
  obtain ⟨-, hkey, -⟩ := h
  exact hkey.pass

mutual

/-- A value that is written passes. -/
theorem SpellsValue.pass : ∀ {node : Node} {text : List Char}, SpellsValue text node →
    node.pass = .ok ()
  | .null, _, .null => rfl
  | .boolean true, _, .yes => rfl
  | .boolean false, _, .no => rfl
  | .number _, _, .number (.mk _ _ _ _ _) => rfl
  | .string _, _, .string h => h.pass
  | .array .closed, _, .emptyArray _ => rfl
  | .array _, _, .array h => h.pass
  | .object .closed, _, .emptyObject _ => rfl
  | .object _, _, .object h => h.pass

/-- The elements of an array that are written pass. -/
theorem SpellsItems.pass : ∀ {items : Items} {text : List Char}, SpellsItems text items →
    items.pass = .ok ()
  | .cons _ .closed, _, .last _ h _ => Items.pass_cons_eq_ok_iff.2 ⟨h.pass, rfl⟩
  | .cons _ _, _, .cons _ h _ htail => Items.pass_cons_eq_ok_iff.2 ⟨h.pass, htail.pass⟩

/-- The members of an object that are written pass. -/
theorem SpellsMembers.pass : ∀ {members : Members} {text : List Char}, SpellsMembers text members →
    members.pass = .ok ()
  | .cons _ _ .closed, _, .last hname _ h _ =>
    Members.pass_cons_eq_ok_iff.2 ⟨hname.pass, h.pass, rfl⟩
  | .cons _ _ _, _, .cons hname _ h _ htail =>
    Members.pass_cons_eq_ok_iff.2 ⟨hname.pass, h.pass, htail.pass⟩

end

/-! ## Texts -/

/-- A text writes a tree exactly if it is scanned as this tree, nothing but spaces follows it, and
the tree can be passed over. -/
theorem spells_iff {text : String} {node : Node} :
    Spells text node ↔ scan text = ⟨node, true⟩ ∧ node.pass = .ok () := by
  constructor
  · rintro @⟨before, piece, after, htext, hbefore, h, hafter⟩
    have hends : EndsNumber after := by
      rw [← List.append_nil after]
      exact .append_space hafter (by rintro _ ⟨⟩)
    have hscan : scanValue (stepsFor text.toList) text.toList = (node, some after) := by
      rw [htext]
      exact scanValue_of_spells hbefore h hends (by simp; omega)
    have hspace : skipSpace after = [] := List.dropWhile_eq_nil_iff.2 hafter
    simp [scan, hscan, hspace, h.pass]
  · rintro ⟨hscan, pass⟩
    have sound := scanValue_sound (stepsFor text.toList) text.toList
    unfold scan at hscan
    cases hvalue : scanValue (stepsFor text.toList) text.toList with
    | mk node' tail =>
      rw [hvalue] at sound hscan
      cases tail with
      | none =>
        cases hscan
        obtain ⟨_, _, -, -, ⟨⟩⟩ := sound pass
      | some rest =>
        simp only [Scanned.mk.injEq, List.isEmpty_iff] at hscan
        obtain ⟨rfl, hrest⟩ := hscan
        obtain ⟨before, piece, after, hbefore, spelled, hafter, htext⟩ := sound.exists_eq pass
        rw [hrest, List.append_nil] at htext
        exact ⟨htext, hbefore, spelled, hafter⟩

/-- A text is JSON exactly if nothing but spaces follows its first value and the value can be passed
over. -/
theorem isJson_iff {text : String} :
    IsJson text ↔ (scan text).isWhole = true ∧ (scan text).node.pass = .ok () := by
  simp only [IsJson, spells_iff]
  constructor
  · rintro ⟨node, hscan, pass⟩
    rw [hscan]
    exact ⟨rfl, pass⟩
  · rintro ⟨whole, pass⟩
    exact ⟨_, by rw [← whole], pass⟩

end QueryPipeline.Json
