import Mathlib.Data.List.TakeWhile
import QueryPipeline.Proofs.Json.Grammar

/-!
# Scanning tokens

The scanners of strings, numbers and words take the pieces that the grammar allows, and no others.
Each has two lemmas: a piece of the grammar is scanned up to its end (`scanString_of_spells`,
`scanNumber_of_spells`), and what is scanned without a fault is a piece of the grammar
(`Scan.Sound`).
-/

namespace QueryPipeline.Json

variable {α β : Type}

/-! ## Spaces and digits -/

/-- A run of characters is taken up to where it stops. -/
theorem takeWhile_append_of_stop {p : Char → Bool} {run rest : List Char}
    (all : ∀ c ∈ run, p c = true) (stop : ∀ c ∈ rest.head?, p c = false) :
    (run ++ rest).takeWhile p = run ∧ (run ++ rest).dropWhile p = rest := by
  rw [List.takeWhile_append_of_pos all, List.dropWhile_append_of_pos all]
  cases rest with
  | nil => simp
  | cons c rest => simp [stop c rfl]

/-- Spaces in front are dropped. -/
theorem skipSpace_append {space rest : List Char} (h : AllSpace space) :
    skipSpace (space ++ rest) = skipSpace rest :=
  List.dropWhile_append_of_pos h

/-- A text that begins with no space is left. -/
theorem skipSpace_cons {c : Char} {rest : List Char} (h : isSpace c = false) :
    skipSpace (c :: rest) = c :: rest :=
  List.dropWhile_cons_of_neg (by simp [h])

/-- What is dropped are spaces. -/
theorem exists_eq_append_skipSpace (text : List Char) :
    ∃ space, AllSpace space ∧ text = space ++ skipSpace text :=
  ⟨text.takeWhile isSpace, fun _ => List.mem_takeWhile_imp, List.takeWhile_append_dropWhile.symm⟩

/-- The digits that a text begins with, if there are any. -/
theorem allDigits_takeWhile {text : List Char} (h : text.takeWhile Char.isDigit ≠ []) :
    AllDigits (text.takeWhile Char.isDigit) :=
  ⟨h, fun _ => List.mem_takeWhile_imp⟩

/-! ## Sound scanners -/

/-- What a scanner says of a text is sound: it took a piece of the text that spells what it read,
unless there is a fault in what it read. -/
def Scan.Sound (spells : List Char → α → Prop) (pass : α → Except Fault Unit) (text : List Char)
    (scanned : Scan α) : Prop :=
  pass scanned.1 = .ok () → ∃ piece rest, text = piece ++ rest ∧ spells piece scanned.1 ∧
    scanned.2 = some rest

/-- A scanner that wraps what another one reads after some characters is as sound as it. -/
theorem Scan.Sound.map {spells : List Char → α → Prop} {pass : α → Except Fault Unit}
    {spells' : List Char → β → Prop} {pass' : β → Except Fault Unit} {text : List Char}
    {scanned : Scan α} (h : scanned.Sound spells pass text) (read : List Char) (f : α → β)
    (passes : ∀ a, pass' (f a) = .ok () → pass a = .ok ())
    (wraps : ∀ piece a, spells piece a → spells' (read ++ piece) (f a)) :
    (scanned.map f).Sound spells' pass' (read ++ text) := by
  intro pass'
  obtain ⟨piece, rest, rfl, spelled, htail⟩ := h (passes _ pass')
  exact ⟨read ++ piece, rest, (List.append_assoc _ _ _).symm, wraps _ _ spelled, htail⟩

/-! ## Strings -/

/-- The parts of a text hold no control character. -/
theorem Piece.any_isControl_of_text? {pieces : List Piece} {content : List Char}
    (h : text? false pieces = some content) : pieces.any isControl = false := by
  fun_induction text? false pieces generalizing content with
  | case1 => rfl
  | case2 c rest ih =>
    obtain ⟨tail, htail, -⟩ := Option.map_eq_some_iff.1 h
    simpa [isControl] using ih htail
  | case4 high hh low rest hl ih =>
    obtain ⟨tail, htail, -⟩ := Option.map_eq_some_iff.1 h
    simpa [isControl] using ih htail
  | case10 code rest hh hl ih =>
    obtain ⟨tail, htail, -⟩ := Option.map_eq_some_iff.1 h
    simpa [isControl] using ih htail
  | _ => simp_all

/-- The parts that the grammar allows hold no control character. -/
theorem SpellsPieces.any_isControl {text : List Char} {pieces : List Piece}
    (h : SpellsPieces text pieces) : pieces.any Piece.isControl = false := by
  induction h with
  | nil => rfl
  | cons head _ ih => cases head <;> simpa [Piece.isControl] using ih

/-- A string is passed over exactly if its parts hold no control character. -/
theorem Quoted.pass_ofPieces_eq_ok_iff {pieces : List Piece} :
    (ofPieces pieces).pass = .ok () ↔ pieces.any Piece.isControl = false := by
  unfold ofPieces
  cases htext : Piece.text? false pieces with
  | some content => simp [pass, Piece.any_isControl_of_text? htext]
  | none => cases hcontrol : pieces.any Piece.isControl <;> simp [pass, hcontrol, orEnding]

/-- A piece in front of what was read up to the closing quote. -/
theorem pushPiece_eq_ok_iff {piece : Piece} {read : List Piece × Except Fault (List Char)}
    {pieces : List Piece} {rest : List Char} :
    pushPiece piece read = (pieces, .ok rest) ↔
      ∃ tail, pieces = piece :: tail ∧ read = (tail, .ok rest) := by
  obtain ⟨tail, ending⟩ := read
  simp only [pushPiece, Prod.mk.injEq]
  constructor
  · rintro ⟨rfl, rfl⟩
    exact ⟨tail, rfl, rfl, rfl⟩
  · rintro ⟨_, rfl, rfl, rfl⟩
    exact ⟨rfl, rfl⟩

/-- Parts are scanned up to the closing quote. -/
theorem scanPieces_of_spells {text : List Char} {pieces : List Piece} (h : SpellsPieces text pieces)
    (rest : List Char) : scanPieces (text ++ '"' :: rest) = (pieces, .ok rest) := by
  induction h with
  | nil => simp [scanPieces]
  | cons head _ ih =>
    cases head with
    | plain quote backslash control => simp [scanPieces, Nat.not_lt.2 control, ih, pushPiece]
    | @short mark c h =>
      have hmark : mark ≠ 'u' := by
        rintro rfl
        cases h
      simp [scanPieces, hmark, h, ih, pushPiece]
    | numbered h => simp [scanPieces, h, ih, pushPiece]

/-- Parts that are scanned and hold no control character are as the grammar has them. -/
theorem spellsPieces_of_scanPieces {text rest : List Char} {pieces : List Piece}
    (h : scanPieces text = (pieces, .ok rest)) (plain : pieces.any Piece.isControl = false) :
    ∃ piece, text = piece ++ '"' :: rest ∧ SpellsPieces piece pieces := by
  fun_induction scanPieces text generalizing pieces with
  | case2 text =>
    cases h
    exact ⟨[], rfl, .nil⟩
  | case4 a b c d text code hcode ih =>
    obtain ⟨tail, rfl, htail⟩ := pushPiece_eq_ok_iff.1 h
    obtain ⟨piece, rfl, spells⟩ := ih htail (by simpa [Piece.isControl] using plain)
    exact ⟨_, rfl, .cons (.numbered hcode) spells⟩
  | case7 mark text _ _ c hc ih =>
    obtain ⟨tail, rfl, htail⟩ := pushPiece_eq_ok_iff.1 h
    obtain ⟨piece, rfl, spells⟩ := ih htail (by simpa [Piece.isControl] using plain)
    exact ⟨_, rfl, .cons (.short hc) spells⟩
  | case9 c text quote backslash ih =>
    obtain ⟨tail, rfl, htail⟩ := pushPiece_eq_ok_iff.1 h
    have control : ¬ c.toNat < 0x20 := by
      intro control
      simp [control, Piece.isControl] at plain
    rw [if_neg control] at plain ⊢
    obtain ⟨piece, rfl, spells⟩ := ih htail (by simpa [Piece.isControl] using plain)
    exact ⟨_, rfl, .cons (.plain quote backslash (Nat.not_lt.1 control)) spells⟩
  | _ => cases h

/-- A string whose closing quote is found is that of its parts. -/
theorem scanString_of_scanPieces {text rest : List Char} {pieces : List Piece}
    (h : scanPieces text = (pieces, .ok rest)) :
    scanString text = (.ofPieces pieces, some rest) := by
  cases htext : Piece.text? false pieces <;> simp [scanString, Quoted.ofPieces, h, htext]

/-- A string is scanned up to its closing quote. -/
theorem scanString_of_spells {text : List Char} {s : Quoted} (h : SpellsString text s)
    (rest : List Char) : scanString (text ++ rest) = (s, some rest) := by
  obtain ⟨hpieces⟩ := h
  rw [List.append_assoc]
  exact scanString_of_scanPieces (scanPieces_of_spells hpieces rest)

/-- A string that is scanned is as the grammar has it. -/
theorem scanString_sound (text : List Char) :
    (scanString text).Sound SpellsString Quoted.pass text := by
  intro pass
  cases hscan : scanPieces text with
  | mk pieces ending =>
    cases ending with
    | ok rest =>
      rw [scanString_of_scanPieces hscan] at pass ⊢
      obtain ⟨piece, rfl, spells⟩ :=
        spellsPieces_of_scanPieces hscan (Quoted.pass_ofPieces_eq_ok_iff.1 pass)
      exact ⟨piece ++ ['"'], rest, by simp, .mk spells, rfl⟩
    | error fault =>
      unfold scanString at pass
      rw [hscan] at pass
      cases htext : Piece.text? true pieces with
      | some content => simp [htext, Quoted.pass] at pass
      | none => cases hcontrol : pieces.any Piece.isControl <;>
          simp [htext, Quoted.pass, orEnding, hcontrol] at pass

/-! ## Numbers -/

/-- What may follow a number: nothing that would be a part of it. -/
def EndsNumber (rest : List Char) : Prop :=
  ∀ c ∈ rest.head?, c.isDigit = false ∧ c ≠ '.' ∧ c ≠ 'e' ∧ c ≠ 'E'

section
variable {negative : Bool} {whole fraction rest : List Char}

/-- An exponent is scanned up to its end. -/
theorem scanExponent_of_spells {sign digits : List Char} {isNegative : Bool}
    (hsign : SpellsExponentSign sign isNegative) (h : AllDigits digits) (hrest : EndsNumber rest) :
    scanExponent negative whole fraction (sign ++ (digits ++ rest)) =
      (.written ⟨negative, whole, fraction, some (isNegative, digits)⟩, some rest) := by
  obtain ⟨htake, hdrop⟩ := takeWhile_append_of_stop h.2 fun c hc => (hrest c hc).1
  obtain ⟨digit, others, rfl⟩ := List.exists_cons_of_ne_nil h.1
  have hdigit : digit.isDigit = true := h.2 digit (.head _)
  cases hsign with
  | unsigned =>
    have hplus : digit ≠ '+' := by rintro rfl; cases hdigit
    have hminus : digit ≠ '-' := by rintro rfl; cases hdigit
    simp_all [scanExponent]
  | positive | negative => simp_all [scanExponent]

/-- What follows the fraction is scanned up to its end. -/
theorem scanAfterFraction_of_spells {exponent : List Char} {power : Option (Bool × List Char)}
    (h : SpellsExponent exponent power) (hrest : EndsNumber rest) :
    scanAfterFraction negative whole fraction (exponent ++ rest) =
      (.written ⟨negative, whole, fraction, power⟩, some rest) := by
  cases h with
  | none =>
    cases rest with
    | nil => rfl
    | cons c rest =>
      obtain ⟨-, -, he, hE⟩ := hrest c rfl
      simp [scanAfterFraction, he, hE]
  | @some mark sign digits isNegative hmark hsign h =>
    have hscan : scanExponent negative whole fraction (sign ++ (digits ++ rest)) = _ :=
      scanExponent_of_spells hsign h hrest
    rw [List.cons_append, List.append_assoc]
    rcases hmark with rfl | rfl
    · exact hscan
    · exact hscan

/-- An exponent, or what follows a number without one, begins with neither a digit nor a point. -/
theorem SpellsExponent.head_ne {exponent : List Char} {power : Option (Bool × List Char)}
    (h : SpellsExponent exponent power) (hrest : EndsNumber rest) :
    ∀ c ∈ (exponent ++ rest).head?, c.isDigit = false ∧ c ≠ '.' := by
  cases h with
  | none => exact fun c hc => ⟨(hrest c hc).1, (hrest c hc).2.1⟩
  | some hmark =>
    rintro c ⟨⟩
    rcases hmark with rfl | rfl
    · decide
    · decide

/-- What follows the digits in front of the point is scanned up to its end. -/
theorem scanAfterWhole_of_spells {point exponent : List Char} {power : Option (Bool × List Char)}
    (hpoint : SpellsFraction point fraction) (hexponent : SpellsExponent exponent power)
    (hrest : EndsNumber rest) :
    scanAfterWhole negative whole (point ++ (exponent ++ rest)) =
      (.written ⟨negative, whole, fraction, power⟩, some rest) := by
  have hscan : scanAfterFraction negative whole fraction (exponent ++ rest) = _ :=
    scanAfterFraction_of_spells hexponent hrest
  have stop := hexponent.head_ne hrest
  cases hpoint with
  | none =>
    rw [List.nil_append, ← hscan]
    cases htext : exponent ++ rest with
    | nil => rfl
    | cons c text =>
      have hc : c ≠ '.' := (stop c (by rw [htext]; rfl)).2
      simp [scanAfterWhole, hc]
  | some h =>
    obtain ⟨htake, hdrop⟩ := takeWhile_append_of_stop h.2 fun c hc => (stop c hc).1
    obtain ⟨digit, others, rfl⟩ := List.exists_cons_of_ne_nil h.1
    simp only [List.cons_append] at htake hdrop ⊢
    simp only [scanAfterWhole, htake, hdrop, hscan]

/-- A number is scanned up to its end. -/
theorem scanNumber_of_spells {text : List Char} {n : Numeral} (h : SpellsNumber text n)
    (hrest : EndsNumber rest) : scanNumber (text ++ rest) = (n, some rest) := by
  obtain @⟨sign, whole, point, exponent, fraction, negative, power, hsign, hwhole, zero, hpoint,
    hexponent⟩ := h
  have hscan : scanAfterWhole negative whole (point ++ (exponent ++ rest)) = _ :=
    scanAfterWhole_of_spells hpoint hexponent hrest
  have stop : ∀ c ∈ (point ++ (exponent ++ rest)).head?, c.isDigit = false := by
    cases hpoint with
    | none => exact fun c hc => (hexponent.head_ne hrest c hc).1
    | some => rintro c ⟨⟩; rfl
  obtain ⟨htake, hdrop⟩ := takeWhile_append_of_stop hwhole.2 stop
  obtain ⟨digit, others, rfl⟩ := List.exists_cons_of_ne_nil hwhole.1
  have hunsigned : scanUnsigned negative (digit :: others ++ (point ++ (exponent ++ rest))) =
      (.written ⟨negative, digit :: others, fraction, power⟩, some rest) := by
    unfold scanUnsigned
    rw [htake, hdrop, ← hscan]
    cases others with
    | nil => simp
    | cons second others =>
      have hdigit : digit ≠ '0' := by
        rintro rfl
        cases zero _ rfl
      simp [hdigit]
  have hminus : digit ≠ '-' := by
    rintro rfl
    exact absurd (hwhole.2 '-' (.head _)) (by decide)
  simp only [List.append_assoc]
  cases hsign with
  | positive =>
    rw [← hunsigned]
    simp [scanNumber, hminus]
  | negative => exact hunsigned

end

/-- The sign of an exponent and what is scanned after it. -/
theorem exists_scanExponent_eq (negative : Bool) (whole fraction text : List Char) :
    ∃ sign isNegative rest, text = sign ++ rest ∧ SpellsExponentSign sign isNegative ∧
      scanExponent negative whole fraction text =
        match rest.takeWhile Char.isDigit with
        | [] => (.broken (missingDigit rest), none)
        | digits => (.written ⟨negative, whole, fraction, some (isNegative, digits)⟩,
            some (rest.dropWhile Char.isDigit)) := by
  unfold scanExponent
  split
  next isNegative rest hsplit =>
    split at hsplit
    · cases hsplit
      exact ⟨['+'], false, rest, rfl, .positive, rfl⟩
    · cases hsplit
      exact ⟨['-'], true, rest, rfl, .negative, rfl⟩
    · cases hsplit
      exact ⟨[], false, text, rfl, .unsigned, rfl⟩

/-- An exponent that is scanned is as the grammar has it. -/
theorem scanExponent_sound {mark : Char} (hmark : mark = 'e' ∨ mark = 'E') (negative : Bool)
    (whole fraction text : List Char) :
    Scan.Sound (fun piece n => ∃ power, SpellsExponent piece power ∧
        n = .written ⟨negative, whole, fraction, power⟩)
      Numeral.pass (mark :: text) (scanExponent negative whole fraction text) := by
  intro pass
  obtain ⟨sign, isNegative, rest, rfl, hsign, hscan⟩ :=
    exists_scanExponent_eq negative whole fraction text
  rw [hscan] at pass ⊢
  cases hdigits : rest.takeWhile Char.isDigit with
  | nil =>
    rw [hdigits] at pass
    cases pass
  | cons digit others =>
    have digits : AllDigits (digit :: others) := by
      rw [← hdigits]
      exact allDigits_takeWhile (by simp [hdigits])
    refine ⟨mark :: (sign ++ (digit :: others)), rest.dropWhile Char.isDigit, ?_,
      ⟨_, .some hmark hsign digits, rfl⟩, rfl⟩
    rw [← hdigits]
    simp [List.takeWhile_append_dropWhile]

/-- What follows the fraction and is scanned is as the grammar has it. -/
theorem scanAfterFraction_sound (negative : Bool) (whole fraction text : List Char) :
    Scan.Sound (fun piece n => ∃ power, SpellsExponent piece power ∧
        n = .written ⟨negative, whole, fraction, power⟩)
      Numeral.pass text (scanAfterFraction negative whole fraction text) := by
  unfold scanAfterFraction
  split
  · exact scanExponent_sound (.inl rfl) _ _ _ _
  · exact scanExponent_sound (.inr rfl) _ _ _ _
  · exact fun _ => ⟨[], _, rfl, ⟨_, .none, rfl⟩, rfl⟩

/-- What follows the digits in front of the point and is scanned is as the grammar has it. -/
theorem scanAfterWhole_sound (negative : Bool) (whole text : List Char) :
    Scan.Sound (fun piece n => ∃ point exponent fraction power, piece = point ++ exponent ∧
        SpellsFraction point fraction ∧ SpellsExponent exponent power ∧
        n = .written ⟨negative, whole, fraction, power⟩)
      Numeral.pass text (scanAfterWhole negative whole text) := by
  intro pass
  unfold scanAfterWhole at pass ⊢
  split at pass
  next rest =>
    cases hdigits : rest.takeWhile Char.isDigit with
    | nil =>
      rw [hdigits] at pass
      cases pass
    | cons digit others =>
      have digits : AllDigits (digit :: others) := by
        rw [← hdigits]
        exact allDigits_takeWhile (by simp [hdigits])
      rw [hdigits] at pass
      obtain ⟨exponent, rest', hrest, ⟨power, hexponent, hn⟩, htail⟩ :=
        scanAfterFraction_sound negative whole (digit :: others) _ pass
      refine ⟨('.' :: digit :: others) ++ exponent, rest', ?_,
        ⟨_, _, _, _, rfl, .some digits, hexponent, hn⟩, htail⟩
      rw [List.append_assoc, ← hrest, ← hdigits]
      simp [List.takeWhile_append_dropWhile]
  next =>
    obtain ⟨exponent, rest', hrest, ⟨power, hexponent, hn⟩, htail⟩ :=
      scanAfterFraction_sound negative whole [] _ pass
    exact ⟨exponent, rest', hrest, ⟨[], _, _, _, rfl, .none, hexponent, hn⟩, htail⟩

/-- A number that is scanned after its sign is as the grammar has it. -/
theorem scanUnsigned_sound {sign : List Char} {negative : Bool} (hsign : SpellsSign sign negative)
    (text : List Char) :
    Scan.Sound SpellsNumber Numeral.pass (sign ++ text) (scanUnsigned negative text) := by
  intro pass
  unfold scanUnsigned at pass ⊢
  split at pass
  next => cases pass
  next => cases pass
  next empty zero =>
    have digits := allDigits_takeWhile empty
    obtain ⟨_, rest, hrest, ⟨_, _, _, _, rfl, hpoint, hexponent, hn⟩, htail⟩ :=
      scanAfterWhole_sound negative _ _ pass
    rw [hn]
    refine ⟨_, rest, ?_, .mk hsign digits ?_ hpoint hexponent, htail⟩
    · rw [List.append_assoc, List.append_assoc, ← hrest, List.takeWhile_append_dropWhile]
    · intro others hzero
      cases others with
      | nil => rfl
      | cons second others => exact absurd hzero (zero second others)

/-- A number that is scanned is as the grammar has it. -/
theorem scanNumber_sound (text : List Char) :
    (scanNumber text).Sound SpellsNumber Numeral.pass text := by
  unfold scanNumber
  split
  · exact scanUnsigned_sound .negative _
  · exact scanUnsigned_sound .positive _

/-! ## Words -/

/-- A word is scanned up to its end. -/
theorem scanWord_append (value : Node) (letters rest : List Char) :
    scanWord value letters (letters ++ rest) = (value, some rest) := by
  induction letters with
  | nil => rfl
  | cons letter letters ih => simp [scanWord, ih]

/-- The letters of a word that is scanned stand there. -/
theorem scanWord_sound (value : Node) (letters text : List Char) :
    Scan.Sound (fun piece node => piece = letters ∧ node = value) Node.pass text
      (scanWord value letters text) := by
  intro pass
  induction letters generalizing text with
  | nil => exact ⟨[], text, rfl, ⟨rfl, rfl⟩, rfl⟩
  | cons letter letters ih =>
    cases text with
    | nil => cases pass
    | cons c text =>
      by_cases hc : c = letter
      · subst hc
        simp only [scanWord, if_true] at pass ⊢
        obtain ⟨_, rest, rfl, ⟨rfl, hnode⟩, htail⟩ := ih text pass
        exact ⟨_, rest, rfl, ⟨rfl, hnode⟩, htail⟩
      · simp [scanWord, hc, Node.pass] at pass

/-- A word that is scanned after its first letter is the value that it stands for. -/
theorem scanWord_spells {value : Node} {first : Char} {letters : List Char}
    (h : SpellsValue (first :: letters) value) (text : List Char) :
    Scan.Sound SpellsValue Node.pass (first :: text) (scanWord value letters text) := by
  intro pass
  obtain ⟨_, rest, rfl, ⟨rfl, hnode⟩, htail⟩ := scanWord_sound value letters text pass
  exact ⟨_, rest, rfl, hnode ▸ h, htail⟩

end QueryPipeline.Json
