import QueryPipeline.Proofs.Double.Parts

/-!
# How far a double that is read is off

`Double.ofParts?` rounds the significand, the power of ten, and what becomes of the two. Each of
these changes a number by a small part of it (`Binary.Rounds.within`), and only the last may lose
digits at the least exponent. So what is made of the parts of a decimal is close to every double
that the decimal rounds to (`ofParts?_close`).
-/

namespace QueryPipeline.Double

open Float.Model Float.Model.UnpackedFloat

/-! ## Numbers that differ by roundings -/

/-- The greatest ratio between a number and the double that it rounds to, where that one uses all
its digits. -/
def slack : ℚ :=
  2 ^ 53 / (2 ^ 53 - 1)

theorem slack_pos : 0 < slack := by
  norm_num [slack]

theorem one_le_slack : 1 ≤ slack := by
  norm_num [slack]

/-- Two numbers differ by a number of roundings at most. -/
structure Within (n : Nat) (v w : ℚ) : Prop where
  le : v ≤ w * slack ^ n
  ge : w ≤ v * slack ^ n

namespace Within

variable {m n : Nat} {v w v' w' z : ℚ}

theorem trans (h : Within m v w) (h' : Within n w z) : Within (m + n) v z := by
  have hm : 0 ≤ slack ^ m := (pow_pos slack_pos m).le
  have hn : 0 ≤ slack ^ n := (pow_pos slack_pos n).le
  constructor
  · calc v ≤ w * slack ^ m := h.le
      _ ≤ z * slack ^ n * slack ^ m := mul_le_mul_of_nonneg_right h'.le hm
      _ = z * slack ^ (m + n) := by rw [pow_add]; ring
  · calc z ≤ w * slack ^ n := h'.ge
      _ ≤ v * slack ^ m * slack ^ n := mul_le_mul_of_nonneg_right h.ge hn
      _ = v * slack ^ (m + n) := by rw [pow_add]; ring

theorem mono (h : Within m v w) (hle : m ≤ n) (hv : 0 ≤ v) (hw : 0 ≤ w) : Within n v w := by
  have hpow := pow_le_pow_right₀ one_le_slack hle
  exact ⟨h.le.trans (mul_le_mul_of_nonneg_left hpow hw),
    h.ge.trans (mul_le_mul_of_nonneg_left hpow hv)⟩

theorem mul (h : Within m v w) (h' : Within n v' w') (hv : 0 ≤ v) (hw : 0 ≤ w) (hv' : 0 ≤ v')
    (hw' : 0 ≤ w') : Within (m + n) (v * v') (w * w') := by
  have hm : 0 ≤ slack ^ m := (pow_pos slack_pos m).le
  constructor
  · calc v * v' ≤ w * slack ^ m * (w' * slack ^ n) := mul_le_mul h.le h'.le hv' (mul_nonneg hw hm)
      _ = w * w' * slack ^ (m + n) := by rw [pow_add]; ring
  · calc w * w' ≤ v * slack ^ m * (v' * slack ^ n) := mul_le_mul h.ge h'.ge hw' (mul_nonneg hv hm)
      _ = v * v' * slack ^ (m + n) := by rw [pow_add]; ring

theorem inv (h : Within n v w) (hv : 0 < v) (hw : 0 < w) : Within n v⁻¹ w⁻¹ := by
  have side {a b : ℚ} (ha : 0 < a) (hb : 0 < b) (hab : b ≤ a * slack ^ n) :
      a⁻¹ ≤ b⁻¹ * slack ^ n := by
    rw [inv_eq_one_div, inv_mul_eq_div, div_le_div_iff₀ ha hb, one_mul, mul_comm]
    exact hab
  exact ⟨side hv hw h.ge, side hw hv h.le⟩

theorem div (h : Within m v w) (h' : Within n v' w') (hv : 0 ≤ v) (hw : 0 ≤ w) (hv' : 0 < v')
    (hw' : 0 < w') : Within (m + n) (v / v') (w / w') := by
  rw [div_eq_mul_inv, div_eq_mul_inv]
  exact h.mul (h'.inv hv' hw') hv hw (inv_pos.2 hv').le (inv_pos.2 hw').le

end Within

namespace Binary

theorem value_nonneg (x : Binary) : 0 ≤ x.value :=
  mul_nonneg (Nat.cast_nonneg _) (by positivity)

/-- A double of a positive significand stands for a positive number. -/
theorem value_pos {x : Binary} (pos : 0 < x.significand) : 0 < x.value :=
  mul_pos (Nat.cast_pos.2 pos) (by positivity)

end Binary

namespace Binary.Rounds

variable {x : Binary} {v : ℚ}

/-- A number that rounds to a double is at most half a unit of the last place from it. -/
theorem abs_sub_le (h : x.Rounds v) : |x.value - v| ≤ 2 ^ (x.exponent - 1) := by
  have hunit : (0 : ℚ) < 2 ^ (x.exponent - 2) := by positivity
  have hlow := h.low
  have hhigh := h.high
  have hbelow := x.below_le
  have hvalue := x.quarters_value
  rw [quarters, div_eq_iff hunit.ne'] at hvalue
  rw [quarters, le_div_iff₀ hunit] at hlow
  rw [quarters, div_le_iff₀ hunit] at hhigh
  have hhalf : (2 : ℚ) ^ (x.exponent - 1) = 2 * 2 ^ (x.exponent - 2) := by
    rw [← zpow_one_add₀ two_ne_zero]
    congr 1
    ring
  have hpart := mul_le_mul_of_nonneg_right hbelow hunit.le
  rw [hvalue, hhalf, abs_le]
  constructor <;> linarith

/-- A double with a great significand is few roundings from a number that rounds to it. -/
theorem within_of_le (h : x.Rounds v) {least n : Nat} (hleast : least ≤ x.significand)
    (enough : slack ^ n ≤ (slack ^ n - 1) * (2 * least)) : Within n x.value v := by
  obtain ⟨half, hhalf⟩ : ∃ half : ℚ, half = 2 ^ (x.exponent - 1) := ⟨_, rfl⟩
  have hpos : 0 < half := hhalf ▸ by positivity
  have hvalue : x.value = 2 * x.significand * half := by
    rw [hhalf, value, zpow_sub_one₀ two_ne_zero]
    ring
  obtain ⟨hlow, hhigh⟩ := abs_le.1 (hhalf ▸ h.abs_sub_le)
  have hone : 1 ≤ slack ^ n := one_le_pow₀ one_le_slack
  have hratio : slack ^ n ≤ (slack ^ n - 1) * (2 * x.significand) := by
    refine enough.trans (mul_le_mul_of_nonneg_left ?_ (by linarith))
    exact mul_le_mul_of_nonneg_left (Nat.cast_le.2 hleast) two_pos.le
  have hscaled : slack ^ n * half ≤ (slack ^ n - 1) * x.value := by
    have := mul_le_mul_of_nonneg_right hratio hpos.le
    rwa [mul_assoc, ← hvalue] at this
  constructor
  · calc x.value ≤ (x.value - half) * slack ^ n := by linarith
      _ ≤ v * slack ^ n := mul_le_mul_of_nonneg_right (by linarith) (by linarith)
  · calc v ≤ x.value + half := by linarith
      _ ≤ x.value + slack ^ n * half := by linarith [le_mul_of_one_le_left hpos.le hone]
      _ ≤ x.value * slack ^ n := by linarith

/-- A double that uses all its digits is one rounding from a number that rounds to it. -/
theorem within (h : x.Rounds v) (full : 2 ^ 52 ≤ x.significand) : Within 1 x.value v :=
  h.within_of_le full (by norm_num [slack])

/-- A number and a double that it rounds to differ by one rounding, or by half of the least
double. -/
theorem le_add (c : x.Canonical) (h : x.Rounds v) (nonneg : 0 ≤ v) :
    x.value ≤ v * slack + 2 ^ (-1075 : ℤ) ∧ v ≤ x.value * slack + 2 ^ (-1075 : ℤ) := by
  have tiny : (0 : ℚ) < 2 ^ (-1075 : ℤ) := by positivity
  rcases c.full with full | least
  · obtain ⟨hle, hge⟩ := h.within full
    rw [pow_one] at hle hge
    constructor <;> linarith
  · have hvalue : 0 ≤ x.value := mul_nonneg (Nat.cast_nonneg _) (by positivity)
    have half : x.exponent - 1 = -1075 := by omega
    obtain ⟨hlow, hhigh⟩ := abs_le.1 (half ▸ h.abs_sub_le)
    have := le_mul_of_one_le_right nonneg one_le_slack
    have := le_mul_of_one_le_right hvalue one_le_slack
    constructor <;> linarith

end Binary.Rounds

/-- Two numbers differ by a small part of them and a few of the least doubles at most. -/
structure Close (v w : ℚ) : Prop where
  le : v ≤ w * (1 + 2 ^ (-49 : ℤ)) + 2 ^ (-1073 : ℤ)
  ge : w ≤ v * (1 + 2 ^ (-49 : ℤ)) + 2 ^ (-1073 : ℤ)

/-- Doubles that are one rounding each from numbers that are few roundings apart are close. -/
theorem close_of_rounds {x y : Binary} {v w : ℚ} (cx : x.Canonical) (cy : y.Canonical)
    (hx : x.Rounds v) (hy : y.Rounds w) (hv : 0 ≤ v) (hw : 0 ≤ w) (h : Within 8 w v) :
    Close y.value x.value := by
  have side {a b c d : ℚ} (hd : 0 ≤ d) (hab : a ≤ b * slack + 2 ^ (-1075 : ℤ))
      (hbc : b ≤ c * slack ^ 8) (hcd : c ≤ d * slack + 2 ^ (-1075 : ℤ)) :
      a ≤ d * (1 + 2 ^ (-49 : ℤ)) + 2 ^ (-1073 : ℤ) := by
    have htiny : (0 : ℚ) < 2 ^ (-1075 : ℤ) := by positivity
    have hfour : (2 : ℚ) ^ (-1073 : ℤ) = 4 * 2 ^ (-1075 : ℤ) := by
      rw [show (-1073 : ℤ) = 2 + -1075 from rfl, zpow_add₀ two_ne_zero]
      norm_num
    have hten : slack ^ 10 ≤ 1 + 2 ^ (-49 : ℤ) := by norm_num [slack]
    have hnine : slack ^ 9 ≤ 3 := by norm_num [slack]
    rw [hfour]
    generalize (2 : ℚ) ^ (-1075 : ℤ) = tiny at hab hcd htiny
    calc a ≤ b * slack + tiny := hab
      _ ≤ c * slack ^ 8 * slack + tiny := by
          have := mul_le_mul_of_nonneg_right hbc slack_pos.le
          linarith
      _ = c * slack ^ 9 + tiny := by ring
      _ ≤ (d * slack + tiny) * slack ^ 9 + tiny := by
          have := mul_le_mul_of_nonneg_right hcd (pow_pos slack_pos 9).le
          linarith
      _ = d * slack ^ 10 + tiny * slack ^ 9 + tiny := by ring
      _ ≤ d * (1 + 2 ^ (-49 : ℤ)) + 4 * tiny := by
          have := mul_le_mul_of_nonneg_left hten hd
          have := mul_le_mul_of_nonneg_left hnine htiny.le
          linarith
  obtain ⟨hxle, hxge⟩ := hx.le_add cx hv
  obtain ⟨hyle, hyge⟩ := hy.le_add cy hw
  exact ⟨side x.value_nonneg hyle h.le hxge, side y.value_nonneg hxle h.ge hyge⟩

/-! ## What is made of the parts of a decimal -/

/-- A double that exceeds every exponent is infinite. -/
theorem isInf_toFloat {b : Binary} (c : b.Canonical) (great : 971 < b.exponent) :
    (toFloat .positive b).isInf = true := by
  have pos : 0 < b.significand := pos_of_full (c.full.resolve_right (by omega))
  have hexponent : 2048 ≤ (b.exponent + 1023 + 52).toNat + 1 := by omega
  have hpack : UnpackedFloat.pack Format.binary64 (unpacked .positive b) =
      packedInfinity Format.binary64 .positive := by
    rw [unpacked_of_pos pos]
    exact if_pos hexponent
  have hunpack : (Float.Model.pack (unpacked .positive b)).unpack = .infinity .positive := by
    change UnpackedFloat.unpack Format.binary64
      (UnpackedFloat.pack Format.binary64 (unpacked .positive b)) = _
    rw [hpack]
    rfl
  change (Float.Model.pack (unpacked .positive b)).unpack.isInf = true
  rw [hunpack]
  rfl

/-- A double without a minus sign whose significand is not zero is not zero. -/
theorem Denotes.beq_zero {x : Float} {b : Binary} (h : Denotes x b) (pos : 0 < b.significand) :
    (x == 0.0) = false := by
  have hzero : (0.0 : Float).toModel.unpack = .zero .positive := rfl
  change UnpackedFloat.beq x.toModel.unpack (0.0 : Float).toModel.unpack = _
  rw [hzero, h.unpack, unpacked_of_pos pos]
  rfl

namespace Binary

/-- A double that a number few roundings from one of 64 bits rounds to can be stored. -/
theorem Rounds.most_of_within {x : Binary} {v w : ℚ} {n : Nat} (c : x.Canonical) (h : x.Rounds w)
    (hw : Within 8 w v) (hv : v ≤ n) (bound : n < 0x10000000000000000) : x.exponent ≤ 971 := by
  refine h.most c ?_
  have hlimit : 0x10000000000000000 * 2 < Binary.tooGreat := by decide +kernel
  have htwo : slack ^ 8 ≤ 2 := by norm_num [slack]
  have hn : (n : ℚ) ≤ 0x10000000000000000 := by exact_mod_cast bound.le
  calc w ≤ v * slack ^ 8 := hw.le
    _ ≤ n * 2 := mul_le_mul hv htwo (pow_pos slack_pos 8).le (Nat.cast_nonneg n)
    _ ≤ 0x10000000000000000 * 2 := by linarith
    _ < Binary.tooGreat := by exact_mod_cast hlimit

/-- A double that a natural number divided by the greatest power of ten rounds to has most of its
digits. -/
theorem Rounds.significand_of_within {x : Binary} {w : ℚ} {n : Nat} (c : x.Canonical)
    (h : x.Rounds w) (pos : 0 < n) (hw : Within 2 w (n / 10 ^ 308)) : 2 ^ 50 ≤ x.significand := by
  rcases c.full with full | least
  · exact Nat.le_trans (by norm_num) full
  by_contra few
  have hsignificand : (x.significand : ℚ) + 1 ≤ 2 ^ 50 := by
    have : x.significand + 1 ≤ 2 ^ 50 := by omega
    exact_mod_cast this
  have hhigh := h.high
  rw [quarters, least, div_le_iff₀ (by positivity)] at hhigh
  obtain ⟨k, hk⟩ : ∃ k, k = 308 := ⟨_, rfl⟩
  have closed : 10 ^ k * 3 < 2 ^ 1025 := by
    rw [hk]
    decide +kernel
  have hclosed : (10 : ℚ) ^ k * 3 < 2 ^ (1025 : ℤ) := by exact_mod_cast closed
  have hpow : (2 : ℚ) ^ (1025 : ℤ) * (2 ^ 52 * 2 ^ (-1074 - 2 : ℤ)) = 2 := by
    rw [← zpow_natCast, ← zpow_add₀ two_ne_zero, ← zpow_add₀ two_ne_zero]
    exact zpow_one 2
  have htwo : slack ^ 2 * 2 ≤ 3 := by norm_num [slack]
  have hle := hw.ge
  rw [← hk, div_le_iff₀ (by positivity)] at hle
  have hone : (1 : ℚ) ≤ n := by exact_mod_cast pos
  have hw' : w ≤ 2 ^ 52 * 2 ^ (-1074 - 2 : ℤ) :=
    hhigh.trans (mul_le_mul_of_nonneg_right (by linarith) (by positivity))
  have htiny : (0 : ℚ) < 2 ^ 52 * 2 ^ (-1074 - 2 : ℤ) := by positivity
  have hten : (0 : ℚ) < 10 ^ k := by positivity
  generalize (2 : ℚ) ^ 52 * 2 ^ (-1074 - 2 : ℤ) = tiny at hw' htiny hpow
  generalize (2 : ℚ) ^ (1025 : ℤ) = limit at hclosed hpow
  refine absurd hpow (ne_of_gt ?_)
  calc (2 : ℚ) ≤ w * slack ^ 2 * 10 ^ k * 2 := by linarith
    _ = w * (slack ^ 2 * 2 * 10 ^ k) := by ring
    _ ≤ tiny * (3 * 10 ^ k) := by
        refine mul_le_mul hw' (mul_le_mul_of_nonneg_right htwo hten.le) ?_ htiny.le
        exact mul_nonneg (mul_nonneg (pow_pos slack_pos 2).le two_pos.le) hten.le
    _ < limit * tiny := by
        rw [mul_comm limit]
        exact mul_lt_mul_of_pos_left (by linarith) htiny

end Binary

section
variable {n k : Nat} {x : Binary}

/-- What is made of a product is close to a double that the product rounds to. -/
theorem ofParts?_natCast_close {y : Float} (pos : 0 < n) (bound : n < Binary.tooGreat)
    (c : x.Canonical) (h : x.Rounds (n * 10 ^ k)) (read : ofParts? n k = some y) :
    ∃ b : Binary, b.Canonical ∧ b.exponent ≤ 971 ∧ y = toFloat .positive b ∧
      Close b.value x.value := by
  change (if k ≤ 308 then _ else _) = _ at read
  split at read
  · next hk =>
    obtain ⟨a, ha, rounds, full⟩ := ofNatural_spec pos bound
    obtain ⟨p, hp, rounds', full'⟩ := powerOfTen_spec hk
    obtain ⟨b, cb, hb, heq⟩ := ha.mul hp (pos_of_full full) full'
    rw [heq] at read
    split at read
    · cases read
    · next finite =>
      have most : b.exponent ≤ 971 := not_lt.1 fun great => finite (isInf_toFloat cb great)
      have within : Within 2 (a.value * p.value) (n * 10 ^ k) :=
        (rounds.within full).mul (rounds'.within full') a.value_nonneg (Nat.cast_nonneg n)
          p.value_nonneg (by positivity)
      have nonneg := mul_nonneg a.value_nonneg p.value_nonneg
      exact ⟨b, cb, most, (Option.some.inj read).symm, close_of_rounds c cb h hb (by positivity) nonneg
        (within.mono (by norm_num) nonneg (by positivity))⟩
  · rw [if_neg pos.ne'] at read
    cases read

/-- What is made of a quotient in one step is close to a double that the quotient rounds to. -/
theorem div_powerOfTen_close {z : Float} {a : Binary} {m : Nat} (ha : Denotes z a)
    (hpos : 0 < a.significand) (hk : k ≤ 308) {v : ℚ} (hv : 0 ≤ v) (hvn : v ≤ n)
    (bound : n < 0x10000000000000000) (hm : m ≤ 7) (within : Within m a.value v)
    (c : x.Canonical) (h : x.Rounds (v / 10 ^ k)) :
    ∃ b : Binary, b.Canonical ∧ b.exponent ≤ 971 ∧ z / powerOfTen k = toFloat .positive b ∧
      Close b.value x.value := by
  obtain ⟨p, hp, rounds', full'⟩ := powerOfTen_spec hk
  obtain ⟨b, cb, hb, heq⟩ := ha.div hp hpos full'
  have hten : (1 : ℚ) ≤ 10 ^ k := one_le_pow₀ (by norm_num)
  have nonneg : 0 ≤ a.value / p.value := div_nonneg a.value_nonneg p.value_nonneg
  have nonneg' : 0 ≤ v / 10 ^ k := div_nonneg hv (by positivity)
  have quotient : Within 8 (a.value / p.value) (v / 10 ^ k) :=
    (within.div (rounds'.within full') a.value_nonneg hv (Binary.value_pos (pos_of_full full'))
      (by positivity)).mono (by omega) nonneg nonneg'
  exact ⟨b, cb, hb.most_of_within cb quotient ((div_le_self hv hten).trans hvn) bound, heq,
    close_of_rounds c cb h hb nonneg' nonneg quotient⟩

end

theorem div_pow_add (v : ℚ) (i j : Nat) : v / 10 ^ (i + j) = v / 10 ^ i / 10 ^ j := by
  rw [pow_add, div_div]

/-- What is made of the parts of a decimal is close to a double that the decimal rounds to. -/
theorem ofParts?_close {n : Nat} {e : ℤ} {x : Binary} {y : Float} (pos : 0 < n)
    (bound : n < 0x10000000000000000) (low : -500 ≤ e) (c : x.Canonical) (h : x.Rounds (n * 10 ^ e))
    (read : ofParts? n e = some y) :
    ∃ b : Binary, b.Canonical ∧ b.exponent ≤ 971 ∧ y = toFloat .positive b ∧
      Close b.value x.value := by
  have notGreat : n < Binary.tooGreat := Nat.lt_trans bound (by decide +kernel)
  cases e with
  | ofNat k =>
    rw [Int.ofNat_eq_natCast, zpow_natCast] at h
    exact ofParts?_natCast_close pos notGreat c h read
  | negSucc k =>
    cases read
    rw [zpow_negSucc, ← div_eq_mul_inv] at h
    obtain ⟨a, ha, rounds, full⟩ := ofNatural_spec pos notGreat
    have hpos := pos_of_full full
    rw [shrink]
    rcases Nat.lt_or_ge k 308 with near | far
    · have steps : (k + 1 - 1) / 308 = 0 := Nat.div_eq_of_lt (by omega)
      rw [steps, shrinkSteps, Nat.mul_zero, Nat.sub_zero]
      exact div_powerOfTen_close ha hpos (by omega) (Nat.cast_nonneg n) (le_refl _) bound
        (by norm_num) (rounds.within full) c h
    · have steps : (k + 1 - 1) / 308 = 1 := by omega
      obtain ⟨q, hq, rounds', full'⟩ := powerOfTen_spec (k := 308) (Nat.le_refl _)
      obtain ⟨b, cb, hb, heq⟩ := ha.div hq hpos full'
      have quotient : Within 2 (a.value / q.value) (n / 10 ^ 308) :=
        (rounds.within full).div (rounds'.within full') a.value_nonneg (Nat.cast_nonneg n)
          (Binary.value_pos (pos_of_full full')) (by positivity)
      have hsignificand := hb.significand_of_within cb pos quotient
      have within : Within 7 b.value (n / 10 ^ 308) :=
        (hb.within_of_le hsignificand (by norm_num [slack])).trans quotient
      have small : (n : ℚ) / 10 ^ 308 ≤ n := div_le_self (Nat.cast_nonneg n) (one_le_pow₀ (by norm_num))
      have most := hb.most_of_within cb (quotient.mono (by norm_num)
        (div_nonneg a.value_nonneg q.value_nonneg) (by positivity)) small bound
      have left : k + 1 - 308 * 1 = k + 1 - 308 := rfl
      have whole : k + 1 = 308 + (k + 1 - 308) := by omega
      rw [whole, div_pow_add] at h
      rw [steps, shrinkSteps, ha.beq_zero hpos, if_neg Bool.false_ne_true, shrinkSteps, heq, left]
      exact div_powerOfTen_close (denotes_toFloat cb most) (Nat.lt_of_lt_of_le (by norm_num) hsignificand)
        (by omega) (by positivity) small bound (Nat.le_refl _) within c h

end QueryPipeline.Double
