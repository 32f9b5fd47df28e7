import QueryPipeline.Json.Quantity
import QueryPipeline.Proofs.Json.Write

/-!
# Reading numbers that were written

The reader takes the digits of a number as long as they stay below `2 ^ 64`. Of a number that is
below it takes all of them (`appendDigits_eq`), so a whole number that was written is read as that
number (`read_ofInteger`), and no other text of a number is (`SpellsNumber.eq_ofInteger`).
-/

namespace QueryPipeline.Json

/-- What digits are appended to is no greater than the result. -/
theorem le_ofDigitChars (digits : List Char) (n : Nat) : n ≤ Nat.ofDigitChars 10 digits n := by
  induction digits generalizing n with
  | nil => exact Nat.le_refl n
  | cons c rest ih =>
    rw [Nat.ofDigitChars_cons]
    have h := ih (10 * n + (c.toNat - '0'.toNat))
    omega

/-- Digits are appended in full to a number that stays below the limit. -/
theorem appendDigits_eq {digits : List Char} {n : Nat}
    (h : Nat.ofDigitChars 10 digits n < 0x10000000000000000) :
    appendDigits n digits = (Nat.ofDigitChars 10 digits n, 0) := by
  induction digits generalizing n with
  | nil => rfl
  | cons c rest ih =>
    rw [Nat.ofDigitChars_cons] at h ⊢
    have next : 10 * n + (c.toNat - '0'.toNat) < 0x10000000000000000 :=
      Nat.lt_of_le_of_lt (le_ofDigitChars rest _) h
    rw [appendDigits]
    simp only [next, if_true]
    exact ih h

/-- Where all digits are appended the result is what they make of the number before them. -/
theorem eq_of_appendDigits_eq {digits : List Char} {n m : Nat}
    (h : appendDigits n digits = (m, 0)) : m = Nat.ofDigitChars 10 digits n := by
  induction digits generalizing n with
  | nil => exact (Prod.mk.inj h).1.symm
  | cons c rest ih =>
    rw [appendDigits] at h
    rw [Nat.ofDigitChars_cons]
    split at h
    · exact ih h
    · cases h

/-- The digits of a number below the limit are that number. -/
theorem appendDigits_natural {n : Nat} (h : n < 0x10000000000000000) :
    appendDigits 0 (Text.natural n) = (n, 0) := by
  have value : Nat.ofDigitChars 10 (Text.natural n) 0 = n := Text.digitsValue_natural n
  rw [appendDigits_eq (by rwa [value]), value]

/-- A whole number that was written is read as it is. -/
theorem read_ofInteger {n : Int} (low : -0x8000000000000000 ≤ n) (high : n < 0x10000000000000000) :
    (Numeral.ofInteger n).read = .ok (.whole n) := by
  have digits : appendDigits 0 (Text.natural n.natAbs) = (n.natAbs, 0) :=
    appendDigits_natural (by omega)
  rw [Numeral.ofInteger, Numeral.read, Lexeme.quantity]
  simp only [digits, appendDigits]
  by_cases hn : n < 0
  · have bounds : 0 < n.natAbs ∧ n.natAbs ≤ 0x8000000000000000 := by omega
    have value : -(n.natAbs : Int) = n := by omega
    simp only [hn, decide_true, Bool.true_eq_false, and_self, if_true, if_false, bounds, value]
  · have value : (n.natAbs : Int) = n := by omega
    simp only [hn, decide_false, and_self, if_true, value]

/-- A natural number that was written is read as it is. -/
theorem read_ofNatural {n : Nat} (h : n < 0x10000000000000000) :
    (Numeral.ofNatural n).read = .ok (.whole n) := by
  have read := read_ofInteger (n := n) (by omega) (by omega)
  have same : Numeral.ofInteger n = .ofNatural n := by
    simp [Numeral.ofInteger, Numeral.ofNatural]
  rwa [same] at read

/-! ## Numbers with a point or an exponent -/

namespace Lexeme

variable {lexeme : Lexeme}

/-- All digits of a number as one whole number. -/
def significand (lexeme : Lexeme) : Nat :=
  Text.digitsValue (lexeme.whole ++ lexeme.fraction)

/-- The exponent that is written. -/
def power (lexeme : Lexeme) : Int :=
  match lexeme.exponent with
  | none => 0
  | some (negative, digits) =>
    if negative then -(Text.digitsValue digits : Int) else Text.digitsValue digits

/-- The power of ten that the digits of a number count. -/
def place (lexeme : Lexeme) : Int :=
  lexeme.power - lexeme.fraction.length

/-- A number with a point or an exponent, all of whose digits are taken, is scaled once. -/
theorem quantity_eq_scaled (small : lexeme.significand < 0x10000000000000000)
    (double : lexeme.exponent = none → lexeme.fraction ≠ [])
    (bound : lexeme.power.natAbs ≤ maxWrittenExponent) :
    lexeme.quantity = scaled lexeme.negative lexeme.significand lexeme.place := by
  have hall : Nat.ofDigitChars 10 lexeme.fraction (Nat.ofDigitChars 10 lexeme.whole 0) =
      lexeme.significand := (Nat.ofDigitChars_append 0).symm
  have hfraction := appendDigits_eq (hall ▸ small)
  have hwhole := appendDigits_eq (Nat.lt_of_le_of_lt (le_ofDigitChars lexeme.fraction _)
    (hall ▸ small))
  rw [hall] at hfraction
  rw [quantity, hwhole]
  dsimp only
  rw [hfraction]
  dsimp only
  rw [place]
  unfold power at bound ⊢
  cases written : lexeme.exponent with
  | none =>
    dsimp only
    rw [if_neg fun h => double written h.1]
    simp
  | some exponent =>
    obtain ⟨negative, digits⟩ := exponent
    rw [written] at bound
    dsimp only at bound ⊢
    cases negative with
    | true =>
      simp only [if_true, Int.natAbs_neg, Int.natAbs_natCast] at bound
      rw [if_neg (Nat.not_lt.2 bound)]
      simp [Int.sub_eq_add_neg, Int.add_comm]
    | false =>
      simp only [Bool.false_eq_true, if_false, Int.natAbs_natCast] at bound
      rw [if_neg (Nat.not_lt.2 bound)]
      simp [Int.sub_eq_add_neg, Int.add_comm]

end Lexeme

/-! ## Numbers that are read as whole ones -/

/-- A number that is scaled is a double. -/
theorem scaled_ne_whole {negative : Bool} {significand : Nat} {exponent n : Int} :
    scaled negative significand exponent ≠ .ok (.whole n) := by
  unfold scaled
  split <;> simp

/-- A number is read as a whole one only if no point and no exponent is written; it has that sign
and the digits of that number. -/
theorem Lexeme.eq_of_quantity_eq_whole {lexeme : Lexeme} {n : Int}
    (h : lexeme.quantity = .ok (.whole n)) :
    lexeme = ⟨decide (n < 0), lexeme.whole, [], none⟩ ∧
      Text.digitsValue lexeme.whole = n.natAbs := by
  obtain ⟨negative, digits, fraction, exponent⟩ := lexeme
  obtain ⟨whole, left, hwhole⟩ : ∃ whole left, appendDigits 0 digits = (whole, left) := ⟨_, _, rfl⟩
  rw [quantity, hwhole] at h
  dsimp only at h
  cases exponent with
  | some exponent =>
    dsimp only at h
    split at h
    · split at h <;> cases h
    · split at h <;> exact absurd h scaled_ne_whole
  | none =>
    dsimp only at h
    split at h
    next taken =>
      obtain ⟨rfl, rfl⟩ := taken
      have value : whole = Text.digitsValue digits := eq_of_appendDigits_eq hwhole
      cases negative with
      | false =>
        cases h
        simp [value]
      | true =>
        rw [if_neg Bool.noConfusion] at h
        split at h
        next range =>
          cases h
          have positive : 0 < Text.digitsValue digits := value ▸ range.1
          simp [value, positive]
        next => cases h
    next => exact absurd h scaled_ne_whole

/-- A number of a text that is read as a whole one is written as its digits. -/
theorem SpellsNumber.eq_ofInteger {text : List Char} {numeral : Numeral} {n : Int}
    (h : SpellsNumber text numeral) (read : numeral.read = .ok (.whole n)) :
    numeral = .ofInteger n := by
  cases h with
  | mk _ digits zero _ _ =>
    obtain ⟨written, value⟩ := Lexeme.eq_of_quantity_eq_whole read
    rw [Numeral.ofInteger, written, ← value, Text.natural_digitsValue digits zero]

end QueryPipeline.Json
