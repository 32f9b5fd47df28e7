import Mathlib.Algebra.Order.Field.Power
import Mathlib.Tactic.FieldSimp
import Mathlib.Tactic.Linarith
import Mathlib.Tactic.Positivity
import Mathlib.Tactic.Ring
import QueryPipeline.Double.Shortest

/-!
# The numbers that round to a double

`Binary.Rounds x v` says that a rational number rounds to a double: it lies between the middles of
the gaps on both sides of it, and at a middle only if the significand is even. No number rounds to
two doubles (`Binary.Rounds.unique`), so a double is known by any number that rounds to it.
-/

namespace QueryPipeline.Double

namespace Binary

/-- The number that a double stands for. -/
def value (x : Binary) : ℚ :=
  x.significand * 2 ^ x.exponent

/-- A number in quarters of the last place of a double. -/
def quarters (x : Binary) (v : ℚ) : ℚ :=
  v / 2 ^ (x.exponent - 2)

/-- How far the middle of the gap below a double is from it, in quarters of its last place. -/
def below (x : Binary) : ℚ :=
  if x.narrowBelow then 1 else 2

/-- A number rounds to a double. -/
structure Rounds (x : Binary) (v : ℚ) : Prop where
  low : 4 * x.significand - x.below ≤ x.quarters v
  high : x.quarters v ≤ 4 * x.significand + 2
  /-- At the middle of a gap the even significand is taken. -/
  tie : x.quarters v = 4 * x.significand - x.below ∨ x.quarters v = 4 * x.significand + 2 →
    x.significand % 2 = 0

/-- The form that a double is stored in: all digits of the significand are used, unless the
exponent is the least one. -/
structure Canonical (x : Binary) : Prop where
  small : x.significand < 2 ^ 53
  least : -1074 ≤ x.exponent
  full : 2 ^ 52 ≤ x.significand ∨ x.exponent = -1074
  narrow : x.narrowBelow = true ↔ x.significand = 2 ^ 52 ∧ -1074 < x.exponent

theorem below_le (x : Binary) : x.below ≤ 2 := by
  rw [below]
  split
  · norm_num
  · exact le_refl _

theorem one_le_below (x : Binary) : 1 ≤ x.below := by
  rw [below]
  split
  · exact le_refl _
  · norm_num

/-- A double stands for four quarters of each unit of its significand. -/
theorem quarters_value (x : Binary) : x.quarters x.value = 4 * x.significand := by
  have hpos : (2 : ℚ) ^ x.exponent ≠ 0 := by positivity
  rw [quarters, value, zpow_sub₀ two_ne_zero]
  field_simp
  norm_num [mul_comm]

/-- A number in quarters of a last place is a multiple of it in quarters of a greater one. -/
theorem quarters_eq_mul {x y : Binary} {k : Nat} (h : y.exponent = x.exponent + k) (v : ℚ) :
    x.quarters v = y.quarters v * 2 ^ k := by
  have hexponent : x.exponent - 2 = y.exponent - 2 - (k : ℤ) := by omega
  rw [quarters, quarters, hexponent, zpow_sub₀ two_ne_zero, zpow_natCast, div_div_eq_mul_div,
    div_mul_eq_mul_div]

/-- A double rounds to itself. -/
theorem rounds_value (x : Binary) : x.Rounds x.value := by
  have hbelow := x.one_le_below
  refine ⟨?_, ?_, ?_⟩
  · rw [quarters_value]
    linarith
  · rw [quarters_value]
    linarith
  · rw [quarters_value]
    rintro (h | h)
    · linarith
    · linarith

end Binary

namespace Binary.Rounds

variable {x y : Binary} {v w : ℚ}

/-- Of two doubles with one exponent, the numbers that round to the one with the smaller significand
are smaller. -/
theorem lt_of_significand_lt (hx : x.Rounds v) (hy : y.Rounds w) (same : x.exponent = y.exponent)
    (lt : x.significand < y.significand) : v < w := by
  by_contra hle
  have hquarters : y.quarters w ≤ x.quarters v := by
    rw [quarters, quarters, same]
    exact div_le_div_of_nonneg_right (not_lt.1 hle) (by positivity)
  have hnext : (x.significand : ℚ) + 1 ≤ y.significand := by exact_mod_cast lt
  have hlow := hy.low
  have hhigh := hx.high
  have hbelow := y.below_le
  -- the two meet only in the middle between neighbours, and not both of these are even
  have hsignificand : (y.significand : ℚ) = x.significand + 1 := by linarith
  have even := hx.tie (.inr (by linarith))
  have even' := hy.tie (.inl (by linarith))
  have : y.significand = x.significand + 1 := by exact_mod_cast hsignificand
  omega

/-- The least number that rounds to a double above the least exponent. -/
theorem le_quarters (c : x.Canonical) (h : x.Rounds v) (normal : -1074 < x.exponent) :
    2 ^ 54 - 1 ≤ x.quarters v := by
  have full : 2 ^ 52 ≤ x.significand := c.full.resolve_right (by omega)
  have hlow := h.low
  rcases Nat.eq_or_lt_of_le full with heq | hlt
  · have hnarrow : x.below = 1 := if_pos (c.narrow.2 ⟨heq.symm, normal⟩)
    have hsignificand : (x.significand : ℚ) = 2 ^ 52 := by exact_mod_cast heq.symm
    linarith
  · have hnext : (2 : ℚ) ^ 52 + 1 ≤ x.significand := by exact_mod_cast hlt
    have hbelow := x.below_le
    linarith

/-- Of two doubles, the numbers that round to the one with the smaller exponent are smaller. -/
theorem lt_of_exponent_lt (cx : x.Canonical) (cy : y.Canonical) (hx : x.Rounds v) (hy : y.Rounds w)
    (lt : x.exponent < y.exponent) : v < w := by
  by_contra hle
  obtain ⟨k, hk⟩ : ∃ k : Nat, y.exponent = x.exponent + (k + 1 : Nat) :=
    ⟨(y.exponent - x.exponent - 1).toNat, by omega⟩
  have hsmall : (x.significand : ℚ) + 1 ≤ 2 ^ 53 := by exact_mod_cast cx.small
  have hlow := hy.le_quarters cy (by have := cx.least; omega)
  have hquarters : y.quarters w ≤ y.quarters v :=
    div_le_div_of_nonneg_right (not_lt.1 hle) (by positivity)
  have hpow : (2 : ℚ) ≤ 2 ^ (k + 1) := by
    rw [pow_succ]
    linarith [one_le_pow₀ (one_le_two (α := ℚ)) (n := k)]
  have hprod : ((2 : ℚ) ^ 54 - 1) * 2 ≤ x.quarters v := by
    rw [quarters_eq_mul hk]
    exact mul_le_mul (hlow.trans hquarters) hpow (by norm_num) (by linarith)
  have hhigh := hx.high
  -- only the middle of the gap above the greatest significand is left, which is odd
  have hsignificand : (x.significand : ℚ) + 1 = 2 ^ 53 := by linarith
  have odd : x.significand + 1 = 2 ^ 53 := by exact_mod_cast hsignificand
  have even := hx.tie (.inr (by linarith))
  omega

/-- Rounding keeps the order. -/
theorem value_le (cx : x.Canonical) (cy : y.Canonical) (hx : x.Rounds v) (hy : y.Rounds w)
    (hle : v ≤ w) : x.value ≤ y.value := by
  rcases lt_trichotomy x.exponent y.exponent with lt | same | gt
  · exact (lt_of_exponent_lt cx cy x.rounds_value y.rounds_value lt).le
  · rcases lt_trichotomy x.significand y.significand with lt | eq | gt
    · exact (lt_of_significand_lt x.rounds_value y.rounds_value same lt).le
    · rw [value, value, same, eq]
    · exact absurd (lt_of_significand_lt hy hx same.symm gt) (not_lt.2 hle)
  · exact absurd (lt_of_exponent_lt cy cx hy hx gt) (not_lt.2 hle)

/-- No number rounds to two doubles. -/
theorem unique (cx : x.Canonical) (cy : y.Canonical) (hx : x.Rounds v) (hy : y.Rounds v) : x = y := by
  have hexponent : x.exponent = y.exponent :=
    le_antisymm (not_lt.1 fun h => (lt_of_exponent_lt cy cx hy hx h).false)
      (not_lt.1 fun h => (lt_of_exponent_lt cx cy hx hy h).false)
  have hsignificand : x.significand = y.significand :=
    le_antisymm (not_lt.1 fun h => (lt_of_significand_lt hy hx hexponent.symm h).false)
      (not_lt.1 fun h => (lt_of_significand_lt hx hy hexponent h).false)
  have hnarrow : x.narrowBelow = y.narrowBelow := by
    rw [Bool.eq_iff_iff, cx.narrow, cy.narrow, hexponent, hsignificand]
  cases x
  cases y
  cases hexponent
  cases hsignificand
  cases hnarrow
  rfl

end Binary.Rounds

end QueryPipeline.Double
