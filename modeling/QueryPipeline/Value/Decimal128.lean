import QueryPipeline.Value.Basic
import QueryPipeline.Text.Digits

/-!
# Decimal numbers of 128 bits

A decimal is a sign with a coefficient of at most 34 digits and an exponent of ten, or an infinity,
or not a number. `Decimal.ofText?` reads one from text and refuses what would lose digits;
`Decimal.text` writes one, positionally where the exponent is small. `Decimal128.ofDecimal` and
`Decimal128.toDecimal` are its binary integer encoding.
-/

namespace QueryPipeline

open Text

/-- The kinds of decimal number. -/
inductive Decimal.Magnitude where
  | finite (coefficient : Nat) (exponent : Int)
  | infinity
  | notANumber

/-- A decimal number with its sign. -/
structure Decimal where
  negative : Bool
  magnitude : Decimal.Magnitude

namespace Decimal

/-- The greatest number of digits of a coefficient. -/
def maxDigits : Nat := 34

/-- The least exponent of a coefficient. -/
def minExponent : Int := -6176

/-- The greatest exponent of a coefficient. -/
def maxExponent : Int := 6111

/-- Keeps the first `keep` digits; the digits dropped must be zeros. -/
def shorten? (digits : List Char) (keep : Nat) : Option (List Char) :=
  if (digits.drop keep).all (· == '0') then some (digits.take keep) else none

/-- Drops the zeros in front, keeping one digit. -/
def stripZeros (digits : List Char) : List Char :=
  match digits.dropWhile (· == '0') with
  | [] => ['0']
  | rest => rest

/-- A number that 16 signed bits hold, as every exponent on the way must be. -/
def exponentWord? (n : Int) : Option Int :=
  if -0x8000 ≤ n ∧ n < 0x8000 then some n else none

/-- The exponent written after the mark. -/
def exponent? (text : List Char) : Option Int :=
  (integer? text).bind exponentWord?

/-- The value of digits, before which a plus sign may stand. -/
def coefficient? : List Char → Option Nat
  | '+' :: digits => natural? digits
  | digits => natural? digits

/-- Fits digits and an exponent into the limits of the format without losing a digit. -/
def fit? (digits : List Char) (exponent : Int) : Option (Nat × Int) := do
  let short ← if maxDigits < digits.length then shorten? digits maxDigits else some digits
  let exponent ← exponentWord? (exponent + (digits.length - short.length : Nat))
  if exponent < minExponent then
    if short = ['0'] then return (0, minExponent)
    let drop := (minExponent - exponent).toNat
    if short.length < drop then none
    let kept ← shorten? short (short.length - drop)
    return (← coefficient? kept, minExponent)
  else if maxExponent < exponent then
    if short = ['0'] then return (0, maxExponent)
    let pad := (exponent - maxExponent).toNat
    if maxDigits < short.length + pad then none
    return (← coefficient? (short ++ List.replicate pad '0'), maxExponent)
  else
    return (← coefficient? short, exponent)

/-- Reads digits with an optional point and an optional exponent after `e`. Once the zeros in front
are dropped, a plus sign may come first. -/
def finite? (text : List Char) : Option Magnitude := do
  let mantissa := text.takeWhile (· != 'e')
  let exponent ← match text.dropWhile (· != 'e') with
    | [] => some 0
    | _ :: rest => exponent? rest
  let whole := mantissa.takeWhile (· != '.')
  let fraction := (mantissa.dropWhile (· != '.')).drop 1
  let places ← exponentWord? fraction.length
  let exponent ← exponentWord? (exponent - places)
  let (coefficient, exponent) ← fit? (stripZeros (whole ++ fraction)) exponent
  return .finite coefficient exponent

/-- Reads an unsigned number or the name of a special value. -/
def magnitude? (text : List Char) : Option Magnitude :=
  let lower := text.map Char.toLower
  match String.ofList lower with
  | "nan" | "snan" => some .notANumber
  | "infinity" | "inf" => some .infinity
  | _ => finite? lower

/-- Reads a number with an optional sign. -/
def ofText? : List Char → Option Decimal
  | '-' :: rest => (magnitude? rest).map (⟨true, ·⟩)
  | '+' :: rest => (magnitude? rest).map (⟨false, ·⟩)
  | text => (magnitude? text).map (⟨false, ·⟩)

/-- A finite number: positional for exponents from -6 to 0, else with a signed exponent. -/
def finiteText (coefficient : Nat) (exponent : Int) : List Char :=
  let digits := natural coefficient
  let leading := exponent + digits.length - 1
  if 0 < exponent ∨ leading < -6 then
    let mark := if 0 ≤ leading then ['E', '+'] else ['E']
    match digits with
    | [] => []
    | [d] => [d] ++ mark ++ integer leading
    | d :: rest => [d, '.'] ++ rest ++ mark ++ integer leading
  else
    let places := (-exponent).toNat
    if places = 0 then digits
    else if places < digits.length then
      digits.take (digits.length - places) ++ ['.'] ++ digits.drop (digits.length - places)
    else
      ['0', '.'] ++ List.replicate (places - digits.length) '0' ++ digits

/-- The text of a magnitude. -/
def Magnitude.text : Magnitude → List Char
  | .finite coefficient exponent => finiteText coefficient exponent
  | .infinity => "Infinity".toList
  | .notANumber => "NaN".toList

/-- The text of a decimal number. What is not a number has no sign. -/
def text (d : Decimal) : List Char :=
  match d.negative, d.magnitude with
  | true, .finite coefficient exponent => '-' :: finiteText coefficient exponent
  | true, .infinity => '-' :: Magnitude.infinity.text
  | _, magnitude => magnitude.text

end Decimal

namespace Decimal128

/-- The lowest `count` bytes of a number, the least first. -/
def bytesOf : Nat → Nat → List UInt8
  | 0, _ => []
  | count + 1, n => UInt8.ofNat (n % 256) :: bytesOf count (n / 256)

/-- The number that bytes stand for, the least first. -/
def numberOf : List UInt8 → Nat
  | [] => 0
  | b :: rest => b.toNat + 256 * numberOf rest

theorem length_bytesOf (count n : Nat) : (bytesOf count n).length = count := by
  induction count generalizing n with
  | zero => rfl
  | succ count ih => simp [bytesOf, ih]

/-- The low 127 bits of the encoding. -/
def payload : Decimal.Magnitude → Nat
  | .finite coefficient exponent =>
    (exponent - Decimal.minExponent).toNat * Nat.pow 2 113 + coefficient
  | .infinity => 0x78 * Nat.pow 2 120
  | .notANumber => 0x7c * Nat.pow 2 120

/-- The encoding of a decimal number. -/
def ofDecimal (d : Decimal) : Decimal128 :=
  ⟨bytesOf 16 ((if d.negative then Nat.pow 2 127 else 0) + payload d.magnitude), length_bytesOf ..⟩

/-- The decimal number of an encoding; a coefficient above the greatest one stands for zero. -/
def toDecimal (d : Decimal128) : Decimal :=
  let n : Nat := numberOf d.bytes
  let body : Nat := n % Nat.pow 2 127
  let magnitude : Decimal.Magnitude :=
    if body / Nat.pow 2 122 = 31 then .notANumber
    else if body / Nat.pow 2 122 = 30 then .infinity
    else if body / Nat.pow 2 125 = 3 then
      .finite 0 (Int.ofNat (body / Nat.pow 2 111 % 0x4000) + Decimal.minExponent)
    else
      let coefficient : Nat := body % Nat.pow 2 113
      .finite (if coefficient < Nat.pow 10 34 then coefficient else 0)
        (Int.ofNat (body / Nat.pow 2 113) + Decimal.minExponent)
  ⟨n / Nat.pow 2 127 = 1, magnitude⟩

/-- Reads the text of a decimal number. -/
def ofText? (text : String) : Option Decimal128 :=
  (Decimal.ofText? text.toList).map ofDecimal

/-- The text of the number that an encoding stands for. -/
def text (d : Decimal128) : String :=
  String.ofList d.toDecimal.text

end Decimal128

end QueryPipeline
