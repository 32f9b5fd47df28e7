import QueryPipeline.Proofs.Double.Arithmetic

/-!
# Doubles from decimal parts

`Double.ofParts?` turns a significand and a power of ten into doubles and multiplies or divides. Each
of the two is the double that it rounds to, and exact if it is small
(`ofNatural_spec`, `powerOfTen_spec`).
-/

namespace QueryPipeline.Double

open Float.Model Float.Model.UnpackedFloat

namespace Binary

variable {x : Binary} {v : ℚ}

/-- A double that a number from one on rounds to uses all digits of its significand. -/
theorem Rounds.full (c : x.Canonical) (h : x.Rounds v) (large : 1 ≤ v) : 2 ^ 52 ≤ x.significand := by
  refine c.full.resolve_right fun least => ?_
  have hsmall : (x.significand : ℚ) + 1 ≤ 2 ^ 53 := by exact_mod_cast c.small
  have hhigh := h.high
  rw [quarters, least, div_le_iff₀ (by positivity)] at hhigh
  have hbound : (4 * (x.significand : ℚ) + 2) * 2 ^ (-1074 - 2 : ℤ) ≤ 2 ^ 55 * 2 ^ (-1074 - 2 : ℤ) :=
    mul_le_mul_of_nonneg_right (by linarith) (by positivity)
  have htiny : (2 : ℚ) ^ 55 * 2 ^ (-1074 - 2 : ℤ) < 1 := by
    rw [← zpow_natCast, ← zpow_add₀ two_ne_zero]
    exact zpow_lt_one_of_neg₀ (by norm_num) (by norm_num)
  linarith

/-- The middle of the gap above the greatest double; from there on numbers are too great. -/
def tooGreat : Nat :=
  (2 ^ 54 - 1) * 2 ^ 970

/-- A double that a number that is not too great rounds to can be stored. -/
theorem Rounds.most (c : x.Canonical) (h : x.Rounds v) (lt : v < tooGreat) : x.exponent ≤ 971 := by
  by_contra great
  have hlow := h.le_quarters c (by omega)
  rw [quarters, le_div_iff₀ (by positivity)] at hlow
  have hpow : (2 : ℚ) ^ 970 ≤ 2 ^ (x.exponent - 2) := by
    rw [← zpow_natCast]
    exact zpow_le_zpow_right₀ one_le_two (by push_cast; omega)
  have hbound := mul_le_mul_of_nonneg_left hpow (by norm_num : (0 : ℚ) ≤ 2 ^ 54 - 1)
  have hlimit : (tooGreat : ℚ) = (2 ^ 54 - 1) * 2 ^ 970 := by
    rw [tooGreat]
    generalize 970 = k
    push_cast
    norm_num
  rw [hlimit] at lt
  generalize (2 : ℚ) ^ 970 = unit at lt hbound
  linarith

/-- A whole number below the limit of exactness, as a double. -/
theorem exists_value_eq {m : Nat} (pos : 0 < m) (small : m < 2 ^ 53) :
    ∃ x : Binary, x.Canonical ∧ x.value = m ∧ x.significand = m * 2 ^ (52 - m.log2) ∧
      x.exponent = m.log2 - 52 := by
  have hlog : m.log2 < 53 := (Nat.log2_lt pos.ne').2 small
  have hfull : 2 ^ 52 ≤ m * 2 ^ (52 - m.log2) := by
    calc 2 ^ 52 = 2 ^ m.log2 * 2 ^ (52 - m.log2) := by rw [← Nat.pow_add]; congr 1; omega
      _ ≤ m * 2 ^ (52 - m.log2) := Nat.mul_le_mul_right _ (Nat.log2_self_le pos.ne')
  have hsmall : m * 2 ^ (52 - m.log2) < 2 ^ 53 := by
    calc m * 2 ^ (52 - m.log2) < 2 ^ (m.log2 + 1) * 2 ^ (52 - m.log2) :=
          Nat.mul_lt_mul_of_pos_right Nat.lt_log2_self (Nat.pow_pos two_pos)
      _ = 2 ^ 53 := by rw [← Nat.pow_add]; congr 1; omega
  refine ⟨⟨m * 2 ^ (52 - m.log2), m.log2 - 52,
    decide (m * 2 ^ (52 - m.log2) = 2 ^ 52 ∧ -1074 < (m.log2 : ℤ) - 52)⟩,
    ⟨hsmall, ?_, .inl hfull, decide_eq_true_iff⟩, ?_, rfl, rfl⟩
  · dsimp only
    omega
  · have hexponent : (m.log2 : ℤ) - 52 = -((52 - m.log2 : Nat) : ℤ) := by omega
    have hpow : (2 : ℚ) ^ (52 - m.log2) ≠ 0 := by positivity
    rw [value]
    dsimp only
    rw [hexponent, zpow_neg, zpow_natCast]
    push_cast
    field_simp

end Binary

/-- A whole number of 64 bits below the limit of exactness is made a double as it is. -/
theorem toFloat_toUInt64 {m : Nat} (pos : 0 < m) (small : m < 2 ^ 53) :
    ∃ x : Binary, Denotes m.toUInt64.toFloat x ∧ x.value = m ∧ 2 ^ 52 ≤ x.significand := by
  obtain ⟨x, canonical, value, hsignificand, hexponent⟩ := Binary.exists_value_eq pos small
  have hlog : m.log2 < 53 := (Nat.log2_lt pos.ne').2 small
  have full : 2 ^ 52 ≤ x.significand := x.rounds_value.full canonical (by
    rw [value]
    exact_mod_cast pos)
  refine ⟨x, ?_, value, full⟩
  have located : Locates (.ofMantissaAndAccuracy x.significand .exact) (m / 2 ^ x.exponent) := by
    rw [← value, Binary.value, mul_div_cancel_right₀ _ (by positivity)]
    exact .exact _
  have enough : 52 ≤ x.significand.log2 := (Nat.le_log2 (pos_of_full full).ne').2 full
  obtain ⟨y, canonical', rounds, heq⟩ := roundWithAccuracy_eq (s := .positive) located (.inl enough)
  obtain rfl : y = x := rounds.unique canonical' canonical (value ▸ x.rounds_value)
  have hunpacked : UnpackedFloat.ofNat Format.binary64 m = unpacked .positive y := by
    have hcompare : compare (m : ℤ) 0 = .gt := Int.compare_eq_gt.2 (by omega)
    have hshift : (0 - Format.binary64.targetExponent (totalExponent m 0)).toNat = 52 - m.log2 := by
      rw [targetExponent_eq]
      omega
    have hstart : (0 : ℤ) - ((52 - m.log2 : Nat) : ℤ) = m.log2 - 52 := by omega
    rw [← heq, hsignificand, hexponent]
    simp only [UnpackedFloat.ofNat, UnpackedFloat.ofInt, UnpackedFloat.normalize, hcompare,
      Int.toNat_natCast, UnpackedFloat.round, decreaseExponent, hshift, hstart, Nat.shiftLeft_eq]
  have hmodel : m.toUInt64.toFloat = toFloat .positive y := by
    have hword : m.toUInt64.toNat = m := Nat.mod_eq_of_lt (by omega)
    change Float.ofModel (.pack (UnpackedFloat.ofNat Format.binary64 m.toUInt64.toNat)) = _
    rw [hword, hunpacked, toFloat]
  rw [hmodel]
  exact denotes_toFloat canonical (by omega)

/-- A significand with a power of ten that are not both small are made a double in one step. -/
theorem ofScientific_of_large {m k : Nat} (pos : 0 < m) (large : ¬ (m < 2 ^ 53 ∧ k ≤ 22))
    (bound : k ≤ 2048) :
    ∃ x : Binary, x.Canonical ∧ x.Rounds (m * 10 ^ k) ∧
      Float.ofScientific m false k = toFloat .positive x := by
  obtain ⟨n, hn⟩ : ∃ n, n = m <<< 53 * 10 ^ k := ⟨_, rfl⟩
  rw [Nat.shiftLeft_eq] at hn
  have hlarge : 2 ^ 53 ≤ n := by
    rw [hn]
    calc 2 ^ 53 ≤ m * 2 ^ 53 := Nat.le_mul_of_pos_left _ pos
      _ ≤ m * 2 ^ 53 * 10 ^ k := Nat.le_mul_of_pos_right _ (by positivity)
  have located : Locates (.ofMantissaAndAccuracy n .exact) (m * 10 ^ k / 2 ^ (-53 + 0 : ℤ)) := by
    have hvalue : (m : ℚ) * 10 ^ k / 2 ^ (-53 + 0 : ℤ) = n := by
      rw [hn, add_zero, zpow_neg, div_inv_eq_mul]
      push_cast
      exact mul_right_comm _ _ _
    rw [hvalue]
    exact .exact _
  have enough : 52 ≤ n.log2 :=
    (Nat.le_log2 (by omega)).2 (Nat.le_trans (by norm_num) hlarge)
  obtain ⟨x, canonical, rounds, heq⟩ := roundWithAccuracy_eq (s := .positive) located (.inl enough)
  refine ⟨x, canonical, rounds, ?_⟩
  have hmodel : UnpackedFloat.ofScientific Format.binary64 m (k : ℤ) = unpacked .positive x := by
    have notGreat : ¬ (k : ℤ) > 2 ^ Format.binary64.exponentBits := by
      norm_num
      omega
    have notSmall : ¬ (k : ℤ) < -((2 ^ Format.binary64.exponentBits : ℤ) + m.log2) := by
      norm_num
      omega
    rw [UnpackedFloat.ofScientific, dif_neg pos.ne', if_neg notGreat, if_neg notSmall,
      if_pos (by omega), ← heq, hn, ← Nat.shiftLeft_eq]
    rfl
  rw [Float.ofScientific, dif_neg large, toFloat, ← hmodel]
  rfl

/-- The small powers of ten are held exactly. -/
theorem exactlyRepresentablePowersOfTen_spec :
    ∀ k : Fin Float.exactlyRepresentablePowersOfTen.size,
      IsFinite Float.exactlyRepresentablePowersOfTen[k] ∧
        Float.exactlyRepresentablePowersOfTen[k].toBits.toNat / 0x8000000000000000 ≠ 1 ∧
        compareScaled 1 k (Binary.ofFloat Float.exactlyRepresentablePowersOfTen[k]).significand
          (Binary.ofFloat Float.exactlyRepresentablePowersOfTen[k]).exponent = .eq := by
  unfold IsFinite
  decide +kernel

/-- A small power of ten is a double. -/
theorem exists_value_eq_ten_pow {k : Nat} (hk : k ≤ 22) :
    ∃ (power : Float) (x : Binary), Denotes power x ∧ x.value = 10 ^ k ∧
      Float.exactlyRepresentablePowersOfTen[k]? = some power := by
  have index : k < Float.exactlyRepresentablePowersOfTen.size := by
    change k < 23
    omega
  obtain ⟨finite, sign, hcompare⟩ := exactlyRepresentablePowersOfTen_spec ⟨k, index⟩
  have h := (compareScaled_eq_eq_iff _ _ _ _).1 hcompare
  rw [Nat.cast_one, one_mul, zpow_natCast] at h
  exact ⟨_, _, finite.denotes (if_neg sign), h.symm, Array.getElem?_eq_getElem index⟩

/-- A small significand is multiplied by a small power of ten. -/
theorem ofScientific_of_small {m k : Nat} (pos : 0 < m) (small : m < 2 ^ 53) (hk : k ≤ 22) :
    ∃ x y : Binary, ∃ power : Float, Denotes m.toUInt64.toFloat x ∧ Denotes power y ∧
      x.value = m ∧ y.value = 10 ^ k ∧ 2 ^ 52 ≤ x.significand ∧ 2 ^ 52 ≤ y.significand ∧
      Float.ofScientific m false k = m.toUInt64.toFloat * power := by
  obtain ⟨x, hx, value, full⟩ := toFloat_toUInt64 pos small
  obtain ⟨power, y, hy, value', hpower⟩ := exists_value_eq_ten_pow hk
  have full' : 2 ^ 52 ≤ y.significand := y.rounds_value.full hy.canonical (by
    rw [value']
    exact one_le_pow₀ (by norm_num))
  obtain ⟨index, hget⟩ := Array.getElem?_eq_some_iff.1 hpower
  refine ⟨x, y, power, hx, hy, value, value', full, full', ?_⟩
  rw [Float.ofScientific, dif_pos ⟨small, hk⟩, ← hget]
  rfl

/-- A significand with a power of ten is made the double that it rounds to. -/
theorem exists_ofScientific_eq {m k : Nat} (pos : 0 < m) (bound : k ≤ 2048) :
    ∃ x : Binary, x.Canonical ∧ x.Rounds (m * 10 ^ k) ∧
      Float.ofScientific m false k = toFloat .positive x := by
  by_cases small : m < 2 ^ 53 ∧ k ≤ 22
  · obtain ⟨x, y, power, hx, hy, hvalue, hvalue', full, full', heq⟩ :=
      ofScientific_of_small pos small.1 small.2
    rw [heq, ← hvalue, ← hvalue']
    exact hx.mul hy (pos_of_full full) full'
  · exact ofScientific_of_large pos small bound

/-- A natural number is made the double that it rounds to. -/
theorem ofNatural_spec {n : Nat} (pos : 0 < n) (bound : n < Binary.tooGreat) :
    ∃ x : Binary, Denotes (ofNatural n) x ∧ x.Rounds n ∧ 2 ^ 52 ≤ x.significand := by
  obtain ⟨x, canonical, rounds, heq⟩ := exists_ofScientific_eq (k := 0) pos (by norm_num)
  rw [pow_zero, mul_one] at rounds
  refine ⟨x, ?_, rounds, rounds.full canonical (by exact_mod_cast pos)⟩
  rw [ofNatural, heq]
  exact denotes_toFloat canonical (rounds.most canonical (Nat.cast_lt.2 bound))

theorem ten_pow_lt_tooGreat : ∀ k ≤ 308, 10 ^ k < Binary.tooGreat := by
  decide +kernel

/-- A power of ten is made the double that it rounds to. -/
theorem powerOfTen_spec {k : Nat} (bound : k ≤ 308) :
    ∃ x : Binary, Denotes (powerOfTen k) x ∧ x.Rounds (10 ^ k) ∧ 2 ^ 52 ≤ x.significand := by
  obtain ⟨x, canonical, rounds, heq⟩ :=
    exists_ofScientific_eq (m := 1) (k := k) (by norm_num) (by omega)
  rw [Nat.cast_one, one_mul] at rounds
  have lt : (10 : ℚ) ^ k < Binary.tooGreat := by exact_mod_cast ten_pow_lt_tooGreat k bound
  refine ⟨x, ?_, rounds, rounds.full canonical (one_le_pow₀ (by norm_num))⟩
  rw [powerOfTen, heq]
  exact denotes_toFloat canonical (rounds.most canonical lt)

/-! ## A significand with a power of ten -/

namespace Denotes

variable {x : Float} {b : Binary}

/-- A double with a significand and an exponent is not infinite. -/
theorem isInf_eq_false (h : Denotes x b) : x.isInf = false := by
  change x.toModel.unpack.isInf = false
  rw [h.unpack, unpacked]
  split
  · rfl
  · rfl

end Denotes

namespace Binary.Rounds

variable {x y : Binary} {v : ℚ}

/-- A number that is a double rounds to it. -/
theorem value_eq (cx : x.Canonical) (cy : y.Canonical) (h : x.Rounds v) (hy : y.value = v) :
    x.value = v := by
  rw [h.unique cx cy (hy ▸ y.rounds_value), hy]

/-- A double that uses all its digits exceeds a number that rounds to it by a small part of it. -/
theorem value_mul_le (h : x.Rounds v) (full : 2 ^ 52 ≤ x.significand) :
    x.value * (2 ^ 53 - 1) ≤ v * 2 ^ 53 := by
  have hfull : (2 : ℚ) ^ 52 ≤ x.significand := by exact_mod_cast full
  have hunit : (0 : ℚ) < 2 ^ (x.exponent - 2) := by positivity
  have hlow := h.low
  have hbelow := x.below_le
  rw [quarters, le_div_iff₀ hunit] at hlow
  have hvalue : x.value = 4 * x.significand * 2 ^ (x.exponent - 2) := by
    rw [← quarters_value, quarters, div_mul_cancel₀ _ hunit.ne']
  have hpart : 4 * (x.significand : ℚ) * (2 ^ 53 - 1) ≤ (4 * x.significand - x.below) * 2 ^ 53 := by
    linarith
  calc x.value * (2 ^ 53 - 1) = 4 * x.significand * (2 ^ 53 - 1) * 2 ^ (x.exponent - 2) := by
        rw [hvalue]
        ring
    _ ≤ (4 * x.significand - x.below) * 2 ^ 53 * 2 ^ (x.exponent - 2) :=
        mul_le_mul_of_nonneg_right hpart hunit.le
    _ = (4 * x.significand - x.below) * 2 ^ (x.exponent - 2) * 2 ^ 53 := by ring
    _ ≤ v * 2 ^ 53 := mul_le_mul_of_nonneg_right hlow (by norm_num)

end Binary.Rounds

/-- A small significand with a small power of ten is made the double that it rounds to. -/
theorem ofParts?_of_short {n : Nat} {e : ℤ} {x : Binary} (pos : 0 < n) (small : n < 2 ^ 53)
    (low : -22 ≤ e) (high : e ≤ 22) (c : x.Canonical) (h : x.Rounds (n * 10 ^ e)) :
    ofParts? n e = some (toFloat .positive x) := by
  have bound : n < Binary.tooGreat := Nat.lt_trans small (by decide +kernel)
  obtain ⟨a, ha, rounds, full⟩ := ofNatural_spec pos bound
  obtain ⟨exact, cexact, hexact, -⟩ := Binary.exists_value_eq pos small
  have hvalue := rounds.value_eq ha.canonical cexact hexact
  cases e with
  | ofNat k =>
    have hk : k ≤ 22 := Int.ofNat_le.1 high
    obtain ⟨p, hp, rounds', full'⟩ := powerOfTen_spec (k := k) (by omega)
    obtain ⟨_, exact', cexact', hexact', -⟩ := exists_value_eq_ten_pow hk
    have hvalue' := rounds'.value_eq hp.canonical cexact'.canonical hexact'
    obtain ⟨y, cy, hy, heq⟩ := ha.mul hp (pos_of_full full) full'
    rw [hvalue, hvalue'] at hy
    have hscaled : (n : ℚ) * 10 ^ Int.ofNat k = n * 10 ^ k := by
      rw [Int.ofNat_eq_natCast, zpow_natCast]
    rw [hscaled] at h
    obtain rfl : y = x := hy.unique cy c h
    have lt : n * 10 ^ k < Binary.tooGreat :=
      Nat.lt_of_le_of_lt (Nat.mul_le_mul small.le (Nat.pow_le_pow_right (by norm_num) hk))
        (by decide +kernel)
    have finite := (denotes_toFloat cy (hy.most cy (by exact_mod_cast lt))).isInf_eq_false
    rw [ofParts?]
    dsimp only
    rw [if_pos (by omega), heq, finite]
    rfl
  | negSucc k =>
    have hk : k + 1 ≤ 22 := by omega
    obtain ⟨p, hp, rounds', full'⟩ := powerOfTen_spec (k := k + 1) (by omega)
    obtain ⟨_, exact', cexact', hexact', -⟩ := exists_value_eq_ten_pow hk
    have hvalue' := rounds'.value_eq hp.canonical cexact'.canonical hexact'
    obtain ⟨y, cy, hy, heq⟩ := ha.div hp (pos_of_full full) full'
    rw [hvalue, hvalue'] at hy
    have hscaled : (n : ℚ) * 10 ^ Int.negSucc k = n / 10 ^ (k + 1) := by
      rw [zpow_negSucc, div_eq_mul_inv]
    rw [hscaled] at h
    obtain rfl : y = x := hy.unique cy c h
    have hsteps : (k + 1 - 1) / 308 = 0 := Nat.div_eq_of_lt (by omega)
    rw [ofParts?, shrink, hsteps, shrinkSteps, Nat.mul_zero, Nat.sub_zero, heq]

/-! ## The shortest decimal of a double -/

namespace Binary

variable {x : Binary} {v : ℚ}

/-- The middle of the gap below the greatest double. -/
def great : Nat :=
  (2 ^ 54 - 3) * 2 ^ 970

/-- A number that rounds to a double other than the greatest is not above the middle of the gap
below that one. -/
theorem Rounds.le_great (c : x.Canonical) (most : x.exponent ≤ 971) (h : x.Rounds v)
    (other : ¬ (x.significand = 2 ^ 53 - 1 ∧ x.exponent = 971)) : v ≤ great := by
  have hlimit : (great : ℚ) = (2 ^ 54 - 3) * 2 ^ 970 := by
    rw [great]
    generalize 970 = k
    push_cast
    norm_num
  have hhigh := h.high
  rw [quarters, div_le_iff₀ (by positivity)] at hhigh
  rw [hlimit]
  refine le_trans hhigh ?_
  rcases Int.lt_or_eq_of_le most with less | greatest
  · have hsmall : (x.significand : ℚ) + 1 ≤ 2 ^ 53 := by exact_mod_cast c.small
    have hpow : (2 : ℚ) ^ (x.exponent - 2) ≤ 2 ^ 968 := by
      rw [← zpow_natCast]
      exact zpow_le_zpow_right₀ one_le_two (by push_cast; omega)
    have hsplit : (2 : ℚ) ^ 970 = 4 * 2 ^ 968 := by
      rw [show 970 = 2 + 968 from rfl, pow_add]
      norm_num
    rw [hsplit]
    generalize (2 : ℚ) ^ 968 = limit at hpow
    have hunit : (0 : ℚ) < 2 ^ (x.exponent - 2) := by positivity
    generalize (2 : ℚ) ^ (x.exponent - 2) = unit at hpow hunit
    calc (4 * (x.significand : ℚ) + 2) * unit ≤ (2 ^ 55 - 2) * unit :=
          mul_le_mul_of_nonneg_right (by linarith) hunit.le
      _ ≤ (2 ^ 55 - 2) * limit := mul_le_mul_of_nonneg_left hpow (by norm_num)
      _ ≤ (2 ^ 54 - 3) * (4 * limit) := by linarith
  · have hsmall : (x.significand : ℚ) + 2 ≤ 2 ^ 53 := by
      have := c.small
      have : x.significand + 2 ≤ 2 ^ 53 := by omega
      exact_mod_cast this
    have hpow : (2 : ℚ) ^ (x.exponent - 2) = 2 ^ 969 := by
      rw [greatest, ← zpow_natCast]
      rfl
    rw [hpow, show 970 = 1 + 969 from rfl, pow_add]
    have hunit : (0 : ℚ) < 2 ^ 969 := by positivity
    generalize (2 : ℚ) ^ 969 = unit at hunit
    calc (4 * (x.significand : ℚ) + 2) * unit ≤ (2 ^ 55 - 6) * unit :=
          mul_le_mul_of_nonneg_right (by linarith) hunit.le
      _ = (2 ^ 54 - 3) * (2 ^ 1 * unit) := by ring

/-- The shortest decimal of the greatest double. -/
theorem shortest_greatest :
    shortest ⟨2 ^ 53 - 1, 971, false⟩ .toEven = ⟨17976931348623157, 292⟩ := by
  decide +kernel

end Binary

/-- A product of a significand and a power of ten that is not too great is not infinite. -/
theorem ofParts?_of_value_mul_lt {n k : Nat} (pos : 0 < n) (bound : n < Binary.tooGreat)
    (hk : k ≤ 308)
    (h : ∀ x y : Binary, x.Canonical → x.Rounds n → 2 ^ 52 ≤ x.significand → y.Rounds (10 ^ k) →
      2 ^ 52 ≤ y.significand → x.value * y.value < Binary.tooGreat) :
    ∃ y, ofParts? n k = some y := by
  obtain ⟨a, ha, rounds, full⟩ := ofNatural_spec pos bound
  obtain ⟨p, hp, rounds', full'⟩ := powerOfTen_spec hk
  obtain ⟨y, cy, hy, heq⟩ := ha.mul hp (pos_of_full full) full'
  have lt := h a p ha.canonical rounds full rounds' full'
  have finite := (denotes_toFloat cy (hy.most cy lt)).isInf_eq_false
  refine ⟨toFloat .positive y, ?_⟩
  change (if k ≤ 308 then _ else _) = _
  rw [if_pos hk, heq, finite]
  rfl

section
variable {n k : Nat} {x y : Binary}

/-- Products with a power of ten that is not among the greatest are far from too great. -/
theorem value_mul_lt_of_le (hk : k ≤ 291) (hn : n ≤ 10 ^ 17) (hx : x.Rounds n)
    (hy : y.Rounds (10 ^ k)) (full : 2 ^ 52 ≤ x.significand) (full' : 2 ^ 52 ≤ y.significand) :
    x.value * y.value < Binary.tooGreat := by
  have closed : ∀ k ≤ 291, 10 ^ 17 * 2 ^ 53 * (10 ^ k * 2 ^ 53) <
      Binary.tooGreat * (9007199254740991 * 9007199254740991) := by
    decide +kernel
  have hlt : (10 ^ 17 * 2 ^ 53 * (10 ^ k * 2 ^ 53) : ℚ) <
      Binary.tooGreat * (9007199254740991 * 9007199254740991) := by
    exact_mod_cast closed k hk
  have hleft := hx.value_mul_le full
  have hright := hy.value_mul_le full'
  have hnle : (n : ℚ) ≤ 10 ^ 17 := by exact_mod_cast hn
  have hynonneg : 0 ≤ y.value := by
    rw [Binary.value]
    positivity
  have hproduct : x.value * (2 ^ 53 - 1) * (y.value * (2 ^ 53 - 1)) ≤
      10 ^ 17 * 2 ^ 53 * (10 ^ k * 2 ^ 53) :=
    mul_le_mul (hleft.trans (by linarith)) hright (mul_nonneg hynonneg (by norm_num)) (by norm_num)
  have hsquare : x.value * y.value * (9007199254740991 * 9007199254740991) <
      Binary.tooGreat * (9007199254740991 * 9007199254740991) := by
    refine lt_of_eq_of_lt ?_ (lt_of_le_of_lt hproduct hlt)
    norm_num
    ring
  exact lt_of_mul_lt_mul_right hsquare (by norm_num)

/-- The product of a bounded factor and a power of ten that is rounded up. -/
theorem value_mul_lt_of_value_le {bound : Nat} (hx : x.value ≤ bound) (hy : y.Rounds (10 ^ k))
    (full : 2 ^ 52 ≤ y.significand)
    (closed : bound * 10 ^ k * 2 ^ 53 < Binary.tooGreat * 9007199254740991) :
    x.value * y.value < Binary.tooGreat := by
  have hlt : (bound * 10 ^ k * 2 ^ 53 : ℚ) < Binary.tooGreat * 9007199254740991 := by
    exact_mod_cast closed
  have hright := hy.value_mul_le full
  have hynonneg : 0 ≤ y.value := by
    rw [Binary.value]
    positivity
  have hproduct : x.value * (y.value * (2 ^ 53 - 1)) ≤ bound * (10 ^ k * 2 ^ 53) :=
    mul_le_mul hx hright (mul_nonneg hynonneg (by norm_num)) (Nat.cast_nonneg bound)
  rw [← mul_assoc (bound : ℚ)] at hproduct
  have hscaled : x.value * y.value * 9007199254740991 < Binary.tooGreat * 9007199254740991 := by
    refine lt_of_eq_of_lt ?_ (lt_of_le_of_lt hproduct hlt)
    norm_num
    ring
  exact lt_of_mul_lt_mul_right hscaled (by norm_num)

/-- The double below the greatest seventeen digits that are scaled by `10 ^ 292`. -/
theorem value_le_of_le_greatest (c : x.Canonical) (hx : x.Rounds n) (hn : n ≤ 17976931348623157) :
    x.value ≤ (17976931348623156 : Nat) := by
  obtain ⟨below, hbelow⟩ : ∃ y : Binary, y = ⟨8988465674311578, 1, false⟩ := ⟨_, rfl⟩
  have canonical : below.Canonical := by
    rw [hbelow]
    exact ⟨by decide, by decide, .inl (by decide), by decide⟩
  have rounds : below.Rounds (17976931348623157 : Nat) := by
    have covered : below.covers ⟨17976931348623157, 0⟩ = true := by
      rw [hbelow]
      decide
    have h := (Binary.covers_iff (by rw [hbelow]; decide) _).1 covered
    rwa [Decimal.value, zpow_zero, mul_one] at h
  have hvalue : below.value = (17976931348623156 : Nat) := by
    rw [hbelow, Binary.value]
    norm_num
  rw [← hvalue]
  exact hx.value_le c canonical rounds (Nat.cast_le.2 hn)

end

/-- The shortest decimal of a double is below the middle under the greatest double, or the shortest
decimal of that one. -/
theorem Binary.Positive.shortest_le {x : Binary} (h : x.Positive) :
    (x.shortest .toEven).value ≤ Binary.great ∨
      x.shortest .toEven = ⟨17976931348623157, 292⟩ := by
  obtain ⟨rounds, -⟩ := h.shortest .toEven
  by_cases greatest : x.significand = 2 ^ 53 - 1 ∧ x.exponent = 971
  · right
    rw [← Binary.shortest_greatest]
    obtain ⟨significand, exponent, narrow⟩ := x
    obtain ⟨rfl, rfl⟩ := greatest
    have hnarrow : narrow = false := by
      have hne : ¬ (2 ^ 53 - 1 = 2 ^ 52 ∧ (-1074 : ℤ) < 971) := by decide
      exact Bool.eq_false_iff.2 fun narrow => hne (h.narrow.1 narrow)
    rw [hnarrow]
  · exact .inl (rounds.le_great h.toCanonical h.most greatest)

section
variable {n k : Nat}

/-- A power of ten that is not above the doubles. -/
theorem le_of_ten_pow_le_great (h : 10 ^ k ≤ Binary.great) : k ≤ 308 := by
  obtain ⟨limit, hlimit⟩ : ∃ j, j = 309 := ⟨_, rfl⟩
  have closed : Binary.great < 10 ^ limit := by
    rw [hlimit]
    decide +kernel
  by_contra more
  have hle : 10 ^ limit ≤ 10 ^ k := Nat.pow_le_pow_right (by norm_num) (by omega)
  omega

/-- The seventeen digits of a decimal that is not above the doubles. -/
theorem le_of_mul_le_great (hk : k = 292) (h : n * 10 ^ k ≤ Binary.great) :
    n ≤ 17976931348623157 := by
  have closed : Binary.great < 17976931348623158 * 10 ^ k := by
    rw [hk]
    decide +kernel
  have hlt : n < 17976931348623158 := Nat.lt_of_mul_lt_mul_right (Nat.lt_of_le_of_lt h closed)
  omega

/-- The fewer digits of a decimal of a greater exponent. -/
theorem lt_of_mul_le_great (hk : 292 < k) (h : n * 10 ^ k ≤ Binary.great) : n < 2 ^ 53 := by
  obtain ⟨least, hleast⟩ : ∃ j, j = 293 := ⟨_, rfl⟩
  have closed : Binary.great < 2 ^ 53 * 10 ^ least := by
    rw [hleast]
    decide +kernel
  have hle : n * 10 ^ least ≤ n * 10 ^ k :=
    Nat.mul_le_mul_left n (Nat.pow_le_pow_right (by norm_num) (by omega))
  exact Nat.lt_of_mul_lt_mul_right (Nat.lt_of_le_of_lt (Nat.le_trans hle h) closed)

end

/-- The shortest decimal of a double is not too great to be read. -/
theorem exists_ofParts?_shortest {x : Binary} (h : x.Positive) :
    ∃ y, ofParts? (x.shortest .toEven).digits (x.shortest .toEven).exponent = some y := by
  obtain ⟨-, pos, hdigits⟩ := h.shortest .toEven
  have hle := h.shortest_le
  generalize x.shortest .toEven = d at pos hdigits hle
  obtain ⟨n, e⟩ := d
  dsimp only at pos hdigits hle ⊢
  cases e with
  | negSucc k => exact ⟨_, rfl⟩
  | ofNat k =>
    have hsize : n * 10 ^ k ≤ Binary.great ∨ (n = 17976931348623157 ∧ k = 292) := by
      rcases hle with hle | hgreatest
      · rw [Decimal.value, Int.ofNat_eq_natCast, zpow_natCast] at hle
        exact .inl (by exact_mod_cast hle)
      · cases hgreatest
        exact .inr ⟨rfl, rfl⟩
    have hk : k ≤ 308 := by
      rcases hsize with hle | ⟨-, rfl⟩
      · have hpower : 10 ^ k ≤ Binary.great := Nat.le_trans (Nat.le_mul_of_pos_left _ pos) hle
        exact le_of_ten_pow_le_great hpower
      · decide
    have bound : n < Binary.tooGreat := Nat.lt_of_le_of_lt hdigits (by decide +kernel)
    refine ofParts?_of_value_mul_lt pos bound hk fun x y c hx full hy full' => ?_
    rcases Nat.lt_trichotomy k 292 with less | same | more
    · exact value_mul_lt_of_le (by omega) hdigits hx hy full full'
    · have hn : n ≤ 17976931348623157 := by
        rcases hsize with hle | ⟨rfl, -⟩
        · exact le_of_mul_le_great same hle
        · exact Nat.le_refl _
      refine value_mul_lt_of_value_le (value_le_of_le_greatest c hx hn) hy full' ?_
      rw [same]
      decide +kernel
    · have hproduct : n * 10 ^ k ≤ Binary.great := by
        rcases hsize with hle | ⟨-, rfl⟩
        · exact hle
        · omega
      have hn : n < 2 ^ 53 := lt_of_mul_le_great more hproduct
      obtain ⟨exact, cexact, hexact, -⟩ := Binary.exists_value_eq pos hn
      refine value_mul_lt_of_value_le (hx.value_eq c cexact hexact).le hy full' ?_
      exact Nat.lt_of_le_of_lt (Nat.mul_le_mul_right _ hproduct) (by decide +kernel)

end QueryPipeline.Double
