import QueryPipeline.Proofs.Double.Interval

/-!
# The shortest decimal rounds to its double

Each exact comparison of the search is one of rational numbers (`compareScaled_eq_lt_iff` and its
companions), and so `Binary.covers` is `Binary.Rounds`. Seventeen digits always suffice
(`Binary.Positive.exists_candidate`), so the search ends at a decimal that rounds to the double
(`Binary.Positive.shortest`).
-/

namespace QueryPipeline.Double

/-- The number that a decimal stands for. -/
def Decimal.value (d : Decimal) : ℚ :=
  d.digits * 10 ^ d.exponent

/-! ## Comparing scaled numbers -/

/-- A power is a quotient of natural powers. -/
theorem zpow_eq_div (b : ℚ) (i : ℤ) : b ^ i = b ^ i.toNat / b ^ (-i).toNat := by
  rcases le_total 0 i with h | h
  · obtain ⟨n, rfl⟩ := Int.eq_ofNat_of_zero_le h
    simp
  · obtain ⟨n, hn⟩ := Int.eq_ofNat_of_zero_le (Int.neg_nonneg_of_nonpos h)
    obtain rfl : i = -(n : ℤ) := by omega
    simp

/-- A scaled number is whole over a power of its base, also if both are multiplied by a power of
another base. -/
theorem scaled_eq_div (base other : Nat) [NeZero base] [NeZero other] (m : Nat) (k : ℤ) (l : Nat) :
    (m : ℚ) * base ^ k = (m * Nat.pow base k.toNat * Nat.pow other l : Nat) /
      ((base : ℚ) ^ (-k).toNat * other ^ l) := by
  have hbase : (base : ℚ) ^ (-k).toNat ≠ 0 := pow_ne_zero _ (NeZero.ne _)
  have hother : (other : ℚ) ^ l ≠ 0 := pow_ne_zero _ (NeZero.ne _)
  rw [zpow_eq_div base k]
  simp only [Nat.pow_eq]
  push_cast
  field_simp

section
variable (a : Nat) (i : ℤ) (n : Nat) (j : ℤ)

/-- A denominator makes both sides of a comparison whole. -/
theorem exists_denominator : ∃ d : ℚ, 0 < d ∧
    (a : ℚ) * 10 ^ i = (a * Nat.pow 10 i.toNat * Nat.pow 2 (-j).toNat : Nat) / d ∧
    (n : ℚ) * 2 ^ j = (n * Nat.pow 2 j.toNat * Nat.pow 10 (-i).toNat : Nat) / d := by
  refine ⟨10 ^ (-i).toNat * 2 ^ (-j).toNat, by positivity,
    mod_cast scaled_eq_div 10 2 a i (-j).toNat, ?_⟩
  rw [mul_comm (10 ^ _ : ℚ)]
  exact mod_cast scaled_eq_div 2 10 n j (-i).toNat

theorem compareScaled_eq_lt_iff :
    compareScaled a i n j = .lt ↔ (a : ℚ) * 10 ^ i < n * 2 ^ j := by
  obtain ⟨d, hd, hten, htwo⟩ := exists_denominator a i n j
  rw [hten, htwo, div_lt_div_iff_of_pos_right hd, Nat.cast_lt, compareScaled, Nat.compare_eq_lt]

theorem compareScaled_eq_gt_iff :
    compareScaled a i n j = .gt ↔ (n : ℚ) * 2 ^ j < a * 10 ^ i := by
  obtain ⟨d, hd, hten, htwo⟩ := exists_denominator a i n j
  rw [hten, htwo, div_lt_div_iff_of_pos_right hd, Nat.cast_lt, compareScaled, Nat.compare_eq_gt]

theorem compareScaled_eq_eq_iff :
    compareScaled a i n j = .eq ↔ (a : ℚ) * 10 ^ i = n * 2 ^ j := by
  obtain ⟨d, hd, hten, htwo⟩ := exists_denominator a i n j
  rw [hten, htwo, div_left_inj' hd.ne', Nat.cast_inj, compareScaled, Nat.compare_eq_eq]

end

namespace Binary

variable {x : Binary}

/-- A multiple of a quarter of the last place is compared like a number of quarters. -/
theorem lt_quarters_iff (n : ℚ) (v : ℚ) : n < x.quarters v ↔ n * 2 ^ (x.exponent - 2) < v :=
  lt_div_iff₀ (by positivity)

theorem quarters_lt_iff (n : ℚ) (v : ℚ) : x.quarters v < n ↔ v < n * 2 ^ (x.exponent - 2) :=
  div_lt_iff₀ (by positivity)

/-- The search tests whether a decimal rounds to the double. -/
theorem covers_iff (pos : 0 < x.significand) (d : Decimal) :
    x.covers d = true ↔ x.Rounds d.value := by
  obtain ⟨low, hlow⟩ : ∃ low : Nat, low =
      if x.narrowBelow then 4 * x.significand - 1 else 4 * x.significand - 2 := ⟨_, rfl⟩
  obtain ⟨high, hhigh⟩ : ∃ high : Nat, high = 4 * x.significand + 2 := ⟨_, rfl⟩
  have castLow : (low : ℚ) = 4 * x.significand - x.below := by
    rw [hlow, below]
    split
    · rw [Nat.cast_sub (by omega)]
      push_cast
      rfl
    · rw [Nat.cast_sub (by omega)]
      push_cast
      rfl
  have castHigh : (high : ℚ) = 4 * x.significand + 2 := by
    rw [hhigh]
    push_cast
    rfl
  have lowLt : compareScaled d.digits d.exponent low (x.exponent - 2) = .lt ↔
      x.quarters d.value < low := by
    rw [compareScaled_eq_lt_iff, quarters_lt_iff, Decimal.value]
  have lowGt : compareScaled d.digits d.exponent low (x.exponent - 2) = .gt ↔
      low < x.quarters d.value := by
    rw [compareScaled_eq_gt_iff, lt_quarters_iff, Decimal.value]
  have highLt : compareScaled d.digits d.exponent high (x.exponent - 2) = .lt ↔
      x.quarters d.value < high := by
    rw [compareScaled_eq_lt_iff, quarters_lt_iff, Decimal.value]
  have highGt : compareScaled d.digits d.exponent high (x.exponent - 2) = .gt ↔
      high < x.quarters d.value := by
    rw [compareScaled_eq_gt_iff, lt_quarters_iff, Decimal.value]
  rw [castLow] at lowLt lowGt
  rw [castHigh] at highLt highGt
  unfold covers
  simp only [← hlow, ← hhigh]
  by_cases even : x.significand % 2 = 0
  · rw [if_pos even, Bool.and_eq_true, bne_iff_ne, bne_iff_ne, ne_eq, ne_eq, lowLt, highGt, not_lt,
      not_lt]
    exact ⟨fun h => ⟨h.1, h.2, fun _ => even⟩, fun h => ⟨h.low, h.high⟩⟩
  · rw [if_neg even, Bool.and_eq_true, beq_iff_eq, beq_iff_eq, lowGt, highLt]
    constructor
    · rintro ⟨hl, hh⟩
      exact ⟨hl.le, hh.le, fun h => (h.elim hl.ne' hh.ne).elim⟩
    · intro h
      exact ⟨lt_of_le_of_ne h.low fun eq => even (h.tie (.inl eq.symm)),
        lt_of_le_of_ne h.high fun eq => even (h.tie (.inr eq))⟩

/-! ## Grids -/

/-- The integer part of a double on a grid. -/
theorem onGrid_spec (x : Binary) (place : ℤ) :
    x.onGrid place * 10 ^ place ≤ x.value ∧ x.value < (x.onGrid place + 1) * 10 ^ place := by
  obtain ⟨whole, hwhole⟩ : ∃ whole : Nat, whole =
      x.significand * Nat.pow 2 x.exponent.toNat * Nat.pow 10 (-place).toNat := ⟨_, rfl⟩
  obtain ⟨part, hpart⟩ : ∃ part : Nat, part =
      Nat.pow 2 (-x.exponent).toNat * Nat.pow 10 place.toNat := ⟨_, rfl⟩
  have pos : 0 < part := by
    rw [hpart]
    exact Nat.mul_pos (Nat.pow_pos two_pos) (Nat.pow_pos (by decide))
  have hgrid : x.onGrid place = whole / part := by rw [onGrid, hwhole, hpart]
  have hvalue : x.value = whole / part * 10 ^ place := by
    have hten : (10 : ℚ) ^ place.toNat ≠ 0 := by positivity
    have htwo : (2 : ℚ) ^ (-x.exponent).toNat ≠ 0 := by positivity
    rw [value, zpow_eq_div 2 x.exponent, zpow_eq_div 10 place, hwhole,
      hpart]
    simp only [Nat.pow_eq]
    push_cast
    field_simp
  have hpartPos : (0 : ℚ) < part := by exact_mod_cast pos
  have hten : (0 : ℚ) < 10 ^ place := by positivity
  rw [hvalue, hgrid]
  constructor
  · refine mul_le_mul_of_nonneg_right ?_ hten.le
    rw [le_div_iff₀ hpartPos]
    exact_mod_cast Nat.div_mul_le_self whole part
  · refine mul_lt_mul_of_pos_right ?_ hten
    rw [div_lt_iff₀ hpartPos]
    rw [mul_comm]
    exact_mod_cast Nat.lt_mul_div_succ whole pos

/-! ## The number of places before the point -/

/-- A bound between powers of ten and two, from `10 ^ 59 ≤ 2 ^ 196` for great numbers and from
`2 ^ 93 ≤ 10 ^ 28` for small ones. -/
theorem ten_zpow_le_two_zpow {a b : ℤ} (h : 196 * a ≤ 59 * b) (h' : 93 * a ≤ 28 * b) :
    (10 : ℚ) ^ a ≤ 2 ^ b := by
  rcases le_total 0 b with hb | hb
  · obtain ⟨n, rfl⟩ := Int.eq_ofNat_of_zero_le hb
    rw [← pow_le_pow_iff_left₀ (by positivity) (by positivity) (by decide : 196 ≠ 0)]
    calc ((10 : ℚ) ^ a) ^ 196 = 10 ^ (196 * a) := by
          rw [← zpow_natCast, ← zpow_mul, mul_comm]
          rfl
      _ ≤ 10 ^ (59 * (n : ℤ)) := zpow_le_zpow_right₀ (by norm_num) h
      _ = (10 ^ 59) ^ n := by
          rw [zpow_mul, zpow_natCast]
          rfl
      _ ≤ (2 ^ 196) ^ n := pow_le_pow_left₀ (by positivity) (by norm_num) n
      _ = ((2 : ℚ) ^ (n : ℤ)) ^ 196 := by rw [zpow_natCast, ← pow_mul, ← pow_mul, mul_comm]
  · obtain ⟨n, hn⟩ := Int.eq_ofNat_of_zero_le (Int.neg_nonneg_of_nonpos hb)
    obtain rfl : b = -(n : ℤ) := by omega
    rw [← pow_le_pow_iff_left₀ (by positivity) (by positivity) (by decide : 93 ≠ 0)]
    calc ((10 : ℚ) ^ a) ^ 93 = 10 ^ (93 * a) := by
          rw [← zpow_natCast, ← zpow_mul, mul_comm]
          rfl
      _ ≤ 10 ^ (28 * -(n : ℤ)) := zpow_le_zpow_right₀ (by norm_num) h'
      _ = ((10 ^ 28) ^ n)⁻¹ := by
          rw [zpow_mul, zpow_neg, zpow_natCast]
          rfl
      _ ≤ ((2 ^ 93) ^ n)⁻¹ := by
          gcongr
          norm_num
      _ = ((2 : ℚ) ^ (-(n : ℤ))) ^ 93 := by
          rw [zpow_neg, zpow_natCast, inv_pow, ← pow_mul, ← pow_mul, mul_comm]

/-- The bound in the other direction. -/
theorem two_zpow_le_ten_zpow {a b : ℤ} (h : 59 * b ≤ 196 * a) (h' : 28 * b ≤ 93 * a) :
    (2 : ℚ) ^ b ≤ 10 ^ a := by
  have hinv : (10 : ℚ) ^ (-a) ≤ 2 ^ (-b) := ten_zpow_le_two_zpow (by omega) (by omega)
  rwa [zpow_neg, zpow_neg, inv_le_inv₀ (by positivity) (by positivity)] at hinv

/-- The steps stop at a power of ten that is above the double, or go on to the last. -/
theorem lt_magnitudeFrom (x : Binary) (steps : Nat) (k : ℤ) (h : x.value < 10 ^ (k + steps)) :
    x.value < 10 ^ x.magnitudeFrom steps k := by
  induction steps generalizing k with
  | zero => simpa [magnitudeFrom] using h
  | succ steps ih =>
    rw [magnitudeFrom]
    split
    · next above =>
      rw [compareScaled_eq_gt_iff, Nat.cast_one, one_mul] at above
      exact above
    · refine ih (k + 1) ?_
      convert h using 2
      push_cast
      ring

/-- The steps pass only powers of ten that are not above the double. -/
theorem magnitudeFrom_le (x : Binary) (steps : Nat) (k : ℤ) (h : 10 ^ (k - 1) ≤ x.value) :
    10 ^ (x.magnitudeFrom steps k - 1) ≤ x.value := by
  induction steps generalizing k with
  | zero => exact h
  | succ steps ih =>
    rw [magnitudeFrom]
    split
    · exact h
    · next above =>
      rw [compareScaled_eq_gt_iff, Nat.cast_one, one_mul, not_lt] at above
      refine ih (k + 1) ?_
      rw [add_sub_cancel_right]
      exact above

/-- A double that is stored in its form, is not zero and is not too great to be stored. -/
structure Positive (x : Binary) : Prop extends x.Canonical where
  pos : 0 < x.significand
  most : x.exponent ≤ 971

/-- A double has as many places before the point as its magnitude says. -/
theorem Positive.magnitude (h : x.Positive) :
    10 ^ (x.magnitude - 1) ≤ x.value ∧ x.value < 10 ^ x.magnitude := by
  obtain ⟨log, hlog⟩ : ∃ log : ℤ, log = x.significand.log2 + x.exponent := ⟨_, rfl⟩
  have hlow := h.least
  have hhigh := h.most
  have hbits : x.significand.log2 < 53 := (Nat.log2_lt (by have := h.pos; omega)).2 h.small
  have atLeast : (2 : ℚ) ^ log ≤ x.value := by
    rw [hlog, zpow_add₀ two_ne_zero, zpow_natCast, value]
    refine mul_le_mul_of_nonneg_right ?_ (by positivity)
    exact_mod_cast Nat.log2_self_le (by have := h.pos; omega)
  have below : x.value < 2 ^ (log + 1) := by
    have hsplit : log + 1 = (x.significand.log2 + 1 : Nat) + x.exponent := by
      push_cast
      omega
    rw [hsplit, zpow_add₀ two_ne_zero, zpow_natCast, value]
    refine mul_lt_mul_of_pos_right ?_ (by positivity)
    exact_mod_cast Nat.lt_log2_self
  have hmagnitude : x.magnitude = x.magnitudeFrom 6 (log * 30103 / 100000 - 2) := by
    rw [Binary.magnitude, hlog]
  rw [hmagnitude]
  constructor
  · refine magnitudeFrom_le x 6 _ (le_trans ?_ atLeast)
    exact ten_zpow_le_two_zpow (by omega) (by omega)
  · refine lt_magnitudeFrom x 6 _ (lt_of_lt_of_le below ?_)
    exact two_zpow_le_ten_zpow (by push_cast; omega) (by push_cast; omega)

/-! ## The search -/

/-- A decimal close to a double rounds to it. -/
theorem rounds_of_close {v : ℚ} (low : x.value - v < x.below * 2 ^ (x.exponent - 2))
    (high : v - x.value < 2 * 2 ^ (x.exponent - 2)) : x.Rounds v := by
  have hunit : (0 : ℚ) < 2 ^ (x.exponent - 2) := by positivity
  have hlow : 4 * x.significand - x.below < x.quarters v := by
    rw [← quarters_value, quarters, quarters, lt_div_iff₀ hunit, sub_mul, div_mul_cancel₀ _ hunit.ne']
    linarith
  have hhigh : x.quarters v < 4 * x.significand + 2 := by
    rw [← quarters_value, quarters, quarters, div_lt_iff₀ hunit, add_mul, div_mul_cancel₀ _ hunit.ne']
    linarith
  exact ⟨hlow.le, hhigh.le, fun h => (h.elim hlow.ne' hhigh.ne).elim⟩

/-- Half a step on a grid of seventeen digits is less than the distance to the middle of a gap. -/
theorem Positive.half_step_lt (h : x.Positive) {place : ℤ} (fine : 10 ^ (place + 16) ≤ x.value) :
    10 ^ place / 2 < x.below * 2 ^ (x.exponent - 2) := by
  have hunit : (0 : ℚ) < 2 ^ (x.exponent - 2) := by positivity
  have hvalue : x.value = 4 * x.significand * 2 ^ (x.exponent - 2) := by
    rw [← quarters_value, quarters, div_mul_cancel₀ _ hunit.ne']
  have hten : (10 : ℚ) ^ (place + 16) = 10 ^ place * 10 ^ 16 := by
    rw [zpow_add₀ (by norm_num)]
    rfl
  rw [hvalue, hten] at fine
  have hsmall : (x.significand : ℚ) < 2 ^ 53 := by exact_mod_cast h.small
  have hbound : (4 * x.significand : ℚ) < 2 * 10 ^ 16 * x.below := by
    rw [below]
    split
    · next narrow =>
      have hsignificand : (x.significand : ℚ) = 2 ^ 52 := by exact_mod_cast (h.narrow.1 narrow).1
      rw [hsignificand]
      norm_num
    · linarith
  have hscaled := mul_lt_mul_of_pos_right hbound hunit
  linarith

/-- On a grid the search takes one of the two neighbours that rounds to the double, if one does. -/
theorem candidate?_eq (x : Binary) (tie : Tie) (place : ℤ) :
    (x.candidate? tie place = none ∧ (x.covers ⟨x.onGrid place, place⟩ = false ∨ x.onGrid place = 0) ∧
        x.covers ⟨x.onGrid place + 1, place⟩ = false) ∨
      (x.candidate? tie place = some ⟨x.onGrid place, place⟩ ∧
        x.covers ⟨x.onGrid place, place⟩ = true ∧ x.onGrid place ≠ 0) ∨
      (x.candidate? tie place = some ⟨x.onGrid place + 1, place⟩ ∧
        x.covers ⟨x.onGrid place + 1, place⟩ = true) := by
  have lower : (x.covers ⟨x.onGrid place, place⟩ && x.onGrid place != 0) = true ↔
      x.covers ⟨x.onGrid place, place⟩ = true ∧ x.onGrid place ≠ 0 := by
    rw [Bool.and_eq_true, bne_iff_ne]
  unfold candidate?
  dsimp only
  cases low : x.covers ⟨x.onGrid place, place⟩ && x.onGrid place != 0 with
  | false =>
    rw [Bool.and_eq_false_iff, bne_eq_false_iff_eq] at low
    cases high : x.covers ⟨x.onGrid place + 1, place⟩ with
    | false => exact .inl ⟨rfl, low, rfl⟩
    | true => exact .inr (.inr ⟨rfl, rfl⟩)
  | true =>
    rw [lower] at low
    cases high : x.covers ⟨x.onGrid place + 1, place⟩ with
    | false => exact .inr (.inl ⟨rfl, low⟩)
    | true =>
      cases compareScaled (x.onGrid place + (x.onGrid place + 1)) place (2 * x.significand)
        x.exponent with
      | gt => exact .inr (.inl ⟨rfl, low⟩)
      | lt => exact .inr (.inr ⟨rfl, rfl⟩)
      | eq =>
        cases tie with
        | up => exact .inr (.inr ⟨rfl, rfl⟩)
        | toEven =>
          by_cases even : x.onGrid place % 2 = 0
          · exact .inr (.inl ⟨if_pos even, low⟩)
          · exact .inr (.inr ⟨if_neg even, rfl⟩)

/-- What the search takes on a grid rounds to the double. -/
theorem covers_of_candidate? {tie : Tie} {place : ℤ} {d : Decimal}
    (h : x.candidate? tie place = some d) :
    x.covers d = true ∧ 0 < d.digits ∧ d.digits ≤ x.onGrid place + 1 ∧ d.exponent = place := by
  obtain ⟨none, -⟩ | ⟨found, covered, nonzero⟩ | ⟨found, covered⟩ := x.candidate?_eq tie place
  · rw [none] at h
    cases h
  · rw [found] at h
    cases h
    exact ⟨covered, Nat.pos_of_ne_zero nonzero, Nat.le_succ _, rfl⟩
  · rw [found] at h
    cases h
    exact ⟨covered, Nat.succ_pos _, Nat.le_refl _, rfl⟩

/-- On a grid of seventeen digits the search finds a decimal. -/
theorem Positive.exists_candidate (h : x.Positive) (tie : Tie) {place : ℤ}
    (fine : 10 ^ (place + 16) ≤ x.value) : ∃ d, x.candidate? tie place = some d := by
  obtain ⟨low, high⟩ := x.onGrid_spec place
  have hstep := h.half_step_lt fine
  have hbelow := mul_le_mul_of_nonneg_right x.below_le
    (zpow_nonneg (two_pos (α := ℚ)).le (x.exponent - 2))
  have hten : (0 : ℚ) < 10 ^ place := by positivity
  obtain ⟨-, uncovered, uncovered'⟩ | ⟨found, -⟩ | ⟨found, -⟩ := x.candidate?_eq tie place
  · exfalso
    have nonzero : x.onGrid place ≠ 0 := by
      intro zero
      rw [zero, Nat.cast_zero, zero_add, one_mul] at high
      have : (10 : ℚ) ^ place ≤ 10 ^ (place + 16) := zpow_le_zpow_right₀ (by norm_num) (by omega)
      linarith
    -- the double lies within half a step of one of its neighbours
    rcases le_total (x.value - x.onGrid place * 10 ^ place) (10 ^ place / 2) with near | near
    · refine absurd ((covers_iff h.pos ⟨x.onGrid place, place⟩).2 (rounds_of_close ?_ ?_))
        (Bool.eq_false_iff.1 (uncovered.resolve_right nonzero))
      · rw [Decimal.value]
        linarith
      · rw [Decimal.value]
        linarith
    · refine absurd ((covers_iff h.pos ⟨x.onGrid place + 1, place⟩).2 (rounds_of_close ?_ ?_))
        (Bool.eq_false_iff.1 uncovered')
      · rw [Decimal.value]
        push_cast
        linarith
      · rw [Decimal.value]
        push_cast
        linarith
  · exact ⟨_, found⟩
  · exact ⟨_, found⟩

end Binary

/-- Zeros at the end of the digits do not count. -/
theorem Decimal.strip_spec (fuel : Nat) (d : Decimal) (pos : 0 < d.digits) :
    (d.strip fuel).value = d.value ∧ 0 < (d.strip fuel).digits ∧
      (d.strip fuel).digits ≤ d.digits := by
  induction fuel generalizing d with
  | zero => exact ⟨rfl, pos, Nat.le_refl _⟩
  | succ fuel ih =>
    rw [strip]
    split
    · next zero =>
      obtain ⟨hvalue, hpos, hle⟩ := ih ⟨d.digits / 10, d.exponent + 1⟩ (by
        change 0 < d.digits / 10
        omega)
      refine ⟨hvalue.trans ?_, hpos, Nat.le_trans hle (Nat.div_le_self _ _)⟩
      obtain ⟨n, hn⟩ := Nat.dvd_of_mod_eq_zero zero
      rw [value, value, hn, Nat.mul_div_cancel_left n (by decide), zpow_add_one₀ (by norm_num)]
      push_cast
      ring
    · exact ⟨rfl, pos, Nat.le_refl _⟩

namespace Binary

/-- The shortest decimal rounds to its double and has at most seventeen digits. -/
theorem Positive.shortest {x : Binary} (h : x.Positive) (tie : Tie) :
    x.Rounds (x.shortest tie).value ∧ 0 < (x.shortest tie).digits ∧
      (x.shortest tie).digits ≤ 10 ^ 17 := by
  obtain ⟨low, high⟩ := h.magnitude
  have hplace : x.magnitude - 1 - ((16 : Nat) : ℤ) + 16 = x.magnitude - 1 := by omega
  obtain ⟨last, hlast⟩ : ∃ d, x.candidate? tie (x.magnitude - 1 - (16 : Nat)) = some d :=
    h.exists_candidate tie (by rw [hplace]; exact low)
  unfold Binary.shortest
  dsimp only
  cases hfound : (List.range 17).findSome? fun n : Nat =>
      x.candidate? tie (x.magnitude - 1 - n) with
  | none =>
    have hnone := List.findSome?_eq_none_iff.1 hfound 16 (by simp)
    rw [hnone] at hlast
    cases hlast
  | some d =>
    obtain ⟨n, hn, hcandidate⟩ := List.exists_of_findSome?_eq_some hfound
    obtain ⟨covered, pos, digits, -⟩ := covers_of_candidate? hcandidate
    obtain ⟨hvalue, hpos, hle⟩ := Decimal.strip_spec 400 d pos
    refine ⟨?_, hpos, Nat.le_trans hle (Nat.le_trans digits ?_)⟩
    · rw [hvalue]
      exact (covers_iff h.pos d).1 covered
    · -- as many digits as places between the grid and the first digit
      obtain ⟨grid, -⟩ := x.onGrid_spec (x.magnitude - 1 - n)
      have hn : n < 17 := List.mem_range.1 hn
      have hsplit : (10 : ℚ) ^ x.magnitude = 10 ^ (n + 1) * 10 ^ (x.magnitude - 1 - n) := by
        rw [← zpow_natCast, ← zpow_add₀ (by norm_num)]
        congr 1
        push_cast
        ring
      have bound : (x.onGrid (x.magnitude - 1 - n) : ℚ) < 10 ^ (n + 1) := by
        have hlt := lt_of_le_of_lt grid high
        rw [hsplit] at hlt
        exact lt_of_mul_lt_mul_right hlt (by positivity)
      have bound : x.onGrid (x.magnitude - 1 - n) < 10 ^ (n + 1) := by exact_mod_cast bound
      exact Nat.le_trans bound (Nat.pow_le_pow_right (by decide) (by omega))

end Binary

end QueryPipeline.Double
