/-!
# Whole numbers in decimal

`Text.integer?` reads an optional sign followed by one or more ASCII digits and nothing else;
`Text.integer` writes a whole number. What is written reads back (`integer?_integer`).
-/

namespace QueryPipeline.Text

/-- The value of a list of ASCII digits. -/
def digitsValue (digits : List Char) : Nat :=
  Nat.ofDigitChars 10 digits 0

/-- Reads one or more ASCII digits. -/
def natural? (text : List Char) : Option Nat :=
  if text ≠ [] ∧ text.all Char.isDigit then some (digitsValue text) else none

/-- Reads an optional sign followed by one or more ASCII digits. -/
def integer? : List Char → Option Int
  | '+' :: digits => (natural? digits).map Int.ofNat
  | '-' :: digits => (natural? digits).map fun n => -Int.ofNat n
  | digits => (natural? digits).map Int.ofNat

/-- The decimal digits of a natural number. -/
def natural (n : Nat) : List Char :=
  Nat.toDigits 10 n

/-- A whole number in decimal, with a sign only if it is negative. -/
def integer : Int → List Char
  | .ofNat n => natural n
  | .negSucc n => '-' :: natural (n + 1)

/-- Reads a whole number in the range of 32 signed bits. -/
def int32? (text : List Char) : Option Int32 :=
  (integer? text).bind fun n =>
    if -0x80000000 ≤ n ∧ n < 0x80000000 then some (Int32.ofInt n) else none

/-- Reads a whole number in the range of 64 signed bits. -/
def int64? (text : List Char) : Option Int64 :=
  (integer? text).bind fun n =>
    if -0x8000000000000000 ≤ n ∧ n < 0x8000000000000000 then some (Int64.ofInt n) else none

/-! ## Reading what was written -/

theorem natural_ne_nil (n : Nat) : natural n ≠ [] := by
  simp [natural]

theorem isDigit_of_mem_natural {n : Nat} {c : Char} (h : c ∈ natural n) : c.isDigit = true :=
  Nat.isDigit_of_mem_toDigits (by decide) (by decide) h

theorem digitsValue_natural (n : Nat) : digitsValue (natural n) = n :=
  Nat.ofDigitChars_toDigits (by decide) (by decide)

theorem natural?_natural (n : Nat) : natural? (natural n) = some n := by
  have hall : (natural n).all Char.isDigit = true :=
    List.all_eq_true.2 fun _ hc => isDigit_of_mem_natural hc
  simp [natural?, natural_ne_nil, hall, digitsValue_natural]

/-- The text of a natural number begins with a digit, so with no sign. -/
theorem natural_eq_cons (n : Nat) : ∃ c rest, natural n = c :: rest ∧ c.isDigit = true := by
  cases h : natural n with
  | nil => exact absurd h (natural_ne_nil n)
  | cons c rest => exact ⟨c, rest, rfl, isDigit_of_mem_natural (n := n) (by simp [h])⟩

/-- The written form of a whole number reads back. -/
theorem integer?_integer (n : Int) : integer? (integer n) = some n := by
  cases n with
  | ofNat n =>
    obtain ⟨c, rest, hc, hd⟩ := natural_eq_cons n
    have hplus : c ≠ '+' := by rintro rfl; exact absurd hd (by decide)
    have hminus : c ≠ '-' := by rintro rfl; exact absurd hd (by decide)
    have h := natural?_natural n
    rw [hc] at h
    simp [integer, hc, integer?, hplus, hminus, h]
  | negSucc n =>
    simp only [integer, integer?, natural?_natural, Option.map_some]
    rfl

end QueryPipeline.Text
