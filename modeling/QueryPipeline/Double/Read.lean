import QueryPipeline.Text.Digits

/-!
# Doubles from decimal text

Two readers. `Double.ofParts?` scales a whole significand by a power of ten with one rounding per
step; it is the reader of numbers in JSON text and may differ from the nearest double in the last
place. `Double.ofText?` reads a number held in a string and rounds once, to the nearest double.
-/

namespace QueryPipeline.Double

open QueryPipeline.Text

/-- The double nearest to a power of ten. -/
def powerOfTen (n : Nat) : Float :=
  Float.ofScientific 1 false n

/-- The double nearest to a natural number. -/
def ofNatural (n : Nat) : Float :=
  Float.ofScientific n false 0

/-- Divides by `10 ^ 308` the given number of times; a zero ends the steps. -/
def shrinkSteps : Nat → Float → Float
  | 0, x => x
  | steps + 1, x => if x == 0.0 then x else shrinkSteps steps (x / powerOfTen 308)

/-- Divides by `10 ^ n` for a positive `n`, in steps of at most `10 ^ 308`. -/
def shrink (x : Float) (n : Nat) : Float :=
  let steps := (n - 1) / 308
  shrinkSteps steps x / powerOfTen (n - 308 * steps)

/-- `significand * 10 ^ exponent`, or nothing where the product exceeds every double. -/
def ofParts? (significand : Nat) (exponent : Int) : Option Float :=
  let x := ofNatural significand
  match exponent with
  | .ofNat n =>
    if n ≤ 308 then
      let y := x * powerOfTen n
      if y.isInf then none else some y
    else if significand = 0 then some 0.0
    else none
  | .negSucc n => some (shrink x (n + 1))

/-- The double nearest to `digits * 10 ^ exponent`; far exponents give infinity or zero. -/
def nearest (digits : Nat) (exponent : Int) : Float :=
  let leading := exponent + (natural digits).length
  if digits = 0 then 0.0
  else if 400 < leading then Float.ofBits 0x7ff0000000000000
  else if leading < -400 then 0.0
  else
    match exponent with
    | .ofNat n => Float.ofScientific digits false n
    | .negSucc n => Float.ofScientific digits true (n + 1)

/-- Reads the exponent that ends a number: nothing, or a mark followed by a whole number. -/
def exponent? : List Char → Option Int
  | [] => some 0
  | mark :: rest => if mark = 'e' ∨ mark = 'E' then integer? rest else none

/-- Reads digits with an optional point among or beside them, and an optional exponent. -/
def unsigned? (text : List Char) : Option Float := do
  let whole := text.takeWhile Char.isDigit
  let afterWhole := text.dropWhile Char.isDigit
  let (fraction, rest) := match afterWhole with
    | '.' :: more => (more.takeWhile Char.isDigit, more.dropWhile Char.isDigit)
    | _ => ([], afterWhole)
  let exponent ← exponent? rest
  if whole = [] ∧ fraction = [] then none
  else return nearest (digitsValue (whole ++ fraction)) (exponent - fraction.length)

/-- Reads an unsigned number or the name of a special value, in any case of its letters. -/
def magnitude? (text : List Char) : Option Float :=
  match String.ofList (text.map Char.toLower) with
  | "inf" | "infinity" => some (Float.ofBits 0x7ff0000000000000)
  | "nan" => some (Float.ofBits 0x7ff8000000000000)
  | _ => unsigned? text

/-- Reads a number with an optional sign. -/
def ofText? : List Char → Option Float
  | '-' :: rest => (magnitude? rest).map fun x => -x
  | '+' :: rest => magnitude? rest
  | text => magnitude? text

end QueryPipeline.Double
