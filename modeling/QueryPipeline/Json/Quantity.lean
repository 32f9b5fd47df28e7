import QueryPipeline.Json.Node
import QueryPipeline.Double.Read

/-!
# Numbers of JSON text

A number without a point and an exponent is whole if it fits 64 bits: unsigned if it has no sign,
signed and below zero if it has one. Every other number is a double. Its digits are taken as long
as they stay below `2 ^ 64`, later digits count by their place only, and the result is scaled by
`Double.ofParts?`; a number too great for a double is malformed.
-/

namespace QueryPipeline.Json

/-- The value of a number. -/
inductive Quantity where
  | whole (n : Int)
  | double (x : Float)

/-- Appends digits to a number while it stays below `2 ^ 64`; the second part counts the digits
that no longer fit. -/
def appendDigits (n : Nat) : List Char → Nat × Nat
  | [] => (n, 0)
  | c :: rest =>
    let next := 10 * n + (c.toNat - '0'.toNat)
    if next < 0x10000000000000000 then appendDigits next rest else (n, rest.length + 1)

/-- Gives a double the sign of its number. -/
def signed (negative : Bool) (x : Float) : Float :=
  if negative then -x else x

/-- A scaled significand with its sign. -/
def scaled (negative : Bool) (significand : Nat) (exponent : Int) : Except Fault Quantity :=
  match Double.ofParts? significand exponent with
  | some x => .ok (.double (signed negative x))
  | none => .error .malformed

/-- The greatest exponent that is counted digit by digit. -/
def maxWrittenExponent : Nat := 0x7fffffff

/-- The value of a number as written. -/
def Lexeme.quantity (lexeme : Lexeme) : Except Fault Quantity :=
  let (whole, wholeLeft) := appendDigits 0 lexeme.whole
  let (significand, fractionLeft) := appendDigits whole lexeme.fraction
  let places : Int := (wholeLeft : Int) - ((lexeme.fraction.length - fractionLeft : Nat) : Int)
  match lexeme.exponent with
  | none =>
    if lexeme.fraction = [] ∧ wholeLeft = 0 then
      if lexeme.negative = false then .ok (.whole whole)
      else if 0 < whole ∧ whole ≤ 0x8000000000000000 then .ok (.whole (-(whole : Int)))
      else .ok (.double (-Double.ofNatural whole))
    else scaled lexeme.negative significand places
  | some (isNegative, digits) =>
    let exponent := Text.digitsValue digits
    if maxWrittenExponent < exponent then
      if significand ≠ 0 ∧ isNegative = false then .error .malformed
      else .ok (.double (signed lexeme.negative 0.0))
    else if isNegative then scaled lexeme.negative significand (places - exponent)
    else scaled lexeme.negative significand (places + exponent)

/-- The value of a number that is read. -/
def Numeral.read : Numeral → Except Fault Quantity
  | .written lexeme => lexeme.quantity
  | .broken fault => .error fault

end QueryPipeline.Json
