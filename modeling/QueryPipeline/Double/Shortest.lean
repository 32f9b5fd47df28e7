/-!
# The shortest decimal of a double

The reals that round to a finite double form an interval around it, whose ends belong to it exactly
when the significand is even. `Double.shortest` is the decimal with the fewest digits in that
interval, and of those the nearest to the double; a rule of the caller settles an exact tie. The
search compares exact natural numbers throughout.
-/

namespace QueryPipeline.Double

/-- A positive finite double, `significand * 2 ^ exponent`. -/
structure Binary where
  significand : Nat
  exponent : Int
  /-- The gap to the double below is half the gap to the double above. -/
  narrowBelow : Bool

/-- A decimal, `digits * 10 ^ exponent`. -/
structure Decimal where
  digits : Nat
  exponent : Int
deriving Repr, DecidableEq

/-- Which of two equally near decimals is taken. -/
inductive Tie where
  | toEven
  | up
deriving DecidableEq

/-- The absolute value of a finite double. -/
def Binary.ofFloat (x : Float) : Binary :=
  let bits := x.toBits.toNat
  let fraction : Nat := bits % 0x10000000000000
  let biased : Nat := bits / 0x10000000000000 % 0x800
  if biased = 0 then ⟨fraction, -1074, false⟩
  else ⟨0x10000000000000 + fraction, (biased : Int) - 1075, fraction == 0 && decide (1 < biased)⟩

/-- Compares `a * 10 ^ i` with `n * 2 ^ j` exactly. -/
def compareScaled (a : Nat) (i : Int) (n : Nat) (j : Int) : Ordering :=
  compare (a * Nat.pow 10 i.toNat * Nat.pow 2 (-j).toNat)
    (n * Nat.pow 2 j.toNat * Nat.pow 10 (-i).toNat)

/-- A decimal lies among the reals that round to the double. -/
def Binary.covers (x : Binary) (d : Decimal) : Bool :=
  let low := if x.narrowBelow then 4 * x.significand - 1 else 4 * x.significand - 2
  let high := 4 * x.significand + 2
  let below := compareScaled d.digits d.exponent low (x.exponent - 2)
  let above := compareScaled d.digits d.exponent high (x.exponent - 2)
  if x.significand % 2 = 0 then below != .lt && above != .gt else below == .gt && above == .lt

/-- The integer part of `x / 10 ^ place`. -/
def Binary.onGrid (x : Binary) (place : Int) : Nat :=
  x.significand * Nat.pow 2 x.exponent.toNat * Nat.pow 10 (-place).toNat /
    (Nat.pow 2 (-x.exponent).toNat * Nat.pow 10 place.toNat)

/-- The least `k` with `x < 10 ^ k`, reached in single steps from a guess that is not above it. -/
def Binary.magnitudeFrom (x : Binary) : Nat → Int → Int
  | 0, k => k
  | steps + 1, k =>
    if compareScaled 1 k x.significand x.exponent = .gt then k
    else x.magnitudeFrom steps (k + 1)

/-- The number of decimal places before the point: the least `k` with `x < 10 ^ k`. -/
def Binary.magnitude (x : Binary) : Int :=
  let log2 := (x.significand.log2 : Int) + x.exponent
  x.magnitudeFrom 6 (log2 * 30103 / 100000 - 2)

/-- The nearer of the two neighbours of `x` on a grid that `x` covers, if it covers one. -/
def Binary.candidate? (x : Binary) (tie : Tie) (place : Int) : Option Decimal :=
  let low : Decimal := ⟨x.onGrid place, place⟩
  let high : Decimal := ⟨x.onGrid place + 1, place⟩
  match x.covers low && low.digits != 0, x.covers high with
  | false, false => none
  | true, false => some low
  | false, true => some high
  | true, true =>
    match compareScaled (low.digits + high.digits) place (2 * x.significand) x.exponent with
    | .gt => some low
    | .lt => some high
    | .eq =>
      match tie with
      | .up => some high
      | .toEven => if low.digits % 2 = 0 then some low else some high

/-- Moves the zeros at the end of the digits into the exponent. -/
def Decimal.strip : Nat → Decimal → Decimal
  | 0, d => d
  | fuel + 1, d =>
    if d.digits % 10 = 0 then Decimal.strip fuel ⟨d.digits / 10, d.exponent + 1⟩ else d

/-- The decimal with the fewest digits that rounds to a positive double. -/
def Binary.shortest (x : Binary) (tie : Tie) : Decimal :=
  let top := x.magnitude
  let found := (List.range 17).findSome? fun (n : Nat) => x.candidate? tie (top - 1 - n)
  match found with
  | some d => d.strip 400
  | none => Decimal.strip 400 ⟨x.onGrid (top - 17), top - 17⟩

end QueryPipeline.Double
