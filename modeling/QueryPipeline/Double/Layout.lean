import QueryPipeline.Double.Shortest
import QueryPipeline.Text.Digits

/-!
# The text of a double

`Double.plain` writes every digit before and after the point and never an exponent; it is the text
of a number in messages and of a page number. `Double.json` writes the number of a response body:
positional for exponents from -5 to 15, always with a point there, and otherwise with an exponent
that has a sign.
-/

namespace QueryPipeline.Double

open QueryPipeline.Text

/-- How a decimal is laid out. -/
structure Layout where
  /-- The least and the greatest exponent of the leading digit written positionally. -/
  positional : Option (Int × Int)
  /-- A whole number is followed by `.0`. -/
  pointZero : Bool
  /-- Which of two equally near decimals is written. -/
  tie : Tie

/-- Positional notation: the point after, inside or before the digits. -/
def Layout.positionalText (layout : Layout) (digits : List Char) (exponent : Int) : List Char :=
  if 0 ≤ exponent then
    digits ++ List.replicate exponent.toNat '0' ++ (if layout.pointZero then ['.', '0'] else [])
  else
    let places := (-exponent).toNat
    if places < digits.length then
      digits.take (digits.length - places) ++ ['.'] ++ digits.drop (digits.length - places)
    else
      ['0', '.'] ++ List.replicate (places - digits.length) '0' ++ digits

/-- An exponent with its mark and its sign. -/
def signedExponent (exponent : Int) : List Char :=
  (if 0 ≤ exponent then ['e', '+'] else ['e']) ++ integer exponent

/-- One digit before the point, and the exponent of that digit. -/
def exponentText (digits : List Char) (exponent : Int) : List Char :=
  let leading := exponent + digits.length - 1
  match digits with
  | [] => []
  | [d] => d :: signedExponent leading
  | d :: rest => [d, '.'] ++ rest ++ signedExponent leading

/-- The text of the absolute value of a finite double. -/
def Layout.absText (layout : Layout) (x : Float) : List Char :=
  if x == 0.0 then layout.positionalText ['0'] 0
  else
    let d := (Binary.ofFloat x).shortest layout.tie
    let digits := natural d.digits
    let leading := d.exponent + digits.length - 1
    let isPlain := layout.positional.all fun range => range.1 ≤ leading && leading ≤ range.2
    if isPlain then layout.positionalText digits d.exponent else exponentText digits d.exponent

/-- The text of a double; the sign of a zero is written. -/
def Layout.text (layout : Layout) (x : Float) : List Char :=
  let negative := x.toBits.toNat / 0x8000000000000000 = 1
  let sign := if negative then ['-'] else []
  if x.isNaN then ['N', 'a', 'N']
  else if x.isInf then sign ++ ['i', 'n', 'f']
  else sign ++ layout.absText x

/-- All digits, no exponent, no point in a whole number. -/
def plain : Layout := ⟨none, false, .up⟩

/-- Positional from `1e-5` up to `1e15`, with a point. -/
def json : Layout := ⟨some (-5, 15), true, .toEven⟩

end QueryPipeline.Double
