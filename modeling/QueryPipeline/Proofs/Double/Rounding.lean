import Mathlib
import QueryPipeline.Proofs.Double.Interval

/-!
# Rounding in the model of doubles

The model of doubles shifts a significand to its place, keeps two bits that say where the exact
number lies, and rounds. `Locates` says what these bits say of that number, and every step keeps it,
so that the double that is made is the one that the exact number rounds to
(`roundWithAccuracy_eq`).
-/

namespace QueryPipeline.Double

open Float.Model Float.Model.UnpackedFloat

/-! ## Whole numbers -/

/-- The nearest whole number, the even one of two that are equally near. -/
structure Nearest (n : Nat) (v : ℚ) : Prop where
  low : n - 1 / 2 ≤ v
  high : v ≤ n + 1 / 2
  tie : v = n - 1 / 2 ∨ v = n + 1 / 2 → n % 2 = 0

/-- A number below a whole number is not rounded past it. -/
theorem Nearest.le_of_lt {n m : Nat} {v : ℚ} (h : Nearest n v) (lt : v < m) : n ≤ m := by
  have hlow := h.low
  have : (n : ℚ) < m + 1 := by linarith
  have : n < m + 1 := by exact_mod_cast this
  omega

/-- A number from a whole number on is not rounded below it. -/
theorem Nearest.le_of_le {n m : Nat} {v : ℚ} (h : Nearest n v) (le : m ≤ v) : m ≤ n := by
  have hhigh := h.high
  have : (m : ℚ) < n + 1 := by linarith
  have : m < n + 1 := by exact_mod_cast this
  omega

/-- What a mantissa and the two bits after it say of a number. -/
def Locates (em : ExtendedMantissa) (v : ℚ) : Prop :=
  match em.roundBit, em.stickyBit with
  | false, false => v = em.mantissa
  | false, true => em.mantissa < v ∧ v < em.mantissa + 1 / 2
  | true, false => v = em.mantissa + 1 / 2
  | true, true => em.mantissa + 1 / 2 < v ∧ v < em.mantissa + 1

/-- The bits after a mantissa do not change it. -/
theorem mantissa_ofMantissaAndAccuracy (m : Nat) (a : Accuracy) :
    (ExtendedMantissa.ofMantissaAndAccuracy m a).mantissa = m := by
  cases a with
  | exact => rfl
  | inexact o => cases o <;> rfl

namespace Locates

variable {em : ExtendedMantissa} {v : ℚ}

/-- The mantissa is the integer part. -/
theorem floor (h : Locates em v) : em.mantissa ≤ v ∧ v < em.mantissa + 1 := by
  obtain ⟨m, round, sticky⟩ := em
  cases round <;> cases sticky <;> simp only [Locates] at h ⊢
  · exact ⟨h.ge, by linarith⟩
  · exact ⟨by linarith [h.1], by linarith [h.2]⟩
  · exact ⟨by linarith, by linarith⟩
  · exact ⟨by linarith [h.1], by linarith [h.2]⟩

/-- The rounded mantissa is the nearest whole number. -/
theorem nearest (h : Locates em v) : Nearest em.roundedMantissa v := by
  obtain ⟨m, round, sticky⟩ := em
  cases round <;> cases sticky <;>
    simp only [Locates, ExtendedMantissa.roundedMantissa, ExtendedMantissa.accuracy,
      Accuracy.roundToNearestEven] at h ⊢
  · subst h
    exact ⟨by linarith, by linarith, fun tie => by rcases tie with tie | tie <;> linarith⟩
  · obtain ⟨low, high⟩ := h
    exact ⟨by linarith, by linarith, fun tie => by rcases tie with tie | tie <;> linarith⟩
  · subst h
    rcases Nat.mod_two_eq_zero_or_one m with even | odd
    · rw [even, Nat.add_zero]
      exact ⟨by linarith, by linarith, fun _ => even⟩
    · rw [odd]
      exact ⟨by push_cast; linarith, by push_cast; linarith, fun _ => by omega⟩
  · obtain ⟨low, high⟩ := h
    refine ⟨by push_cast; linarith, by push_cast; linarith, fun tie => ?_⟩
    push_cast at tie
    rcases tie with tie | tie <;> linarith

/-- A shift by one place halves the number. -/
theorem shiftRightOne (h : Locates em v) : Locates em.shiftRightOne (v / 2) := by
  obtain ⟨m, round, sticky⟩ := em
  have hsplit : (m : ℚ) = 2 * (m / 2 : Nat) + (m % 2 : Nat) := by
    exact_mod_cast (Nat.div_add_mod m 2).symm
  rcases Nat.mod_two_eq_zero_or_one m with even | odd
  · rw [even, Nat.cast_zero, add_zero] at hsplit
    cases round <;> cases sticky <;>
      simp only [Locates, ExtendedMantissa.shiftRightOne, even, bne_self_eq_false, Bool.or_self,
        Bool.or_true, Bool.or_false] at h ⊢
    · linarith
    · exact ⟨by linarith [h.1], by linarith [h.2]⟩
    · exact ⟨by linarith, by linarith⟩
    · exact ⟨by linarith [h.1], by linarith [h.2]⟩
  · rw [odd, Nat.cast_one] at hsplit
    cases round <;> cases sticky <;>
      simp only [Locates, ExtendedMantissa.shiftRightOne, odd, Nat.reduceBneDiff, Bool.or_self,
        Bool.or_true, Bool.or_false] at h ⊢
    · linarith
    · exact ⟨by linarith [h.1], by linarith [h.2]⟩
    · exact ⟨by linarith, by linarith⟩
    · exact ⟨by linarith [h.1], by linarith [h.2]⟩

/-- A shift by some places. -/
theorem shiftRight (h : Locates em v) (k : Nat) : Locates (em >>> k) (v / 2 ^ k) := by
  change Locates (k.repeat ExtendedMantissa.shiftRightOne em) _
  induction k with
  | zero => simpa [Nat.repeat] using h
  | succ k ih =>
    rw [Nat.repeat, pow_succ, ← div_div]
    exact ih.shiftRightOne

/-- A whole mantissa locates itself. -/
theorem exact (m : Nat) : Locates (.ofMantissaAndAccuracy m .exact) m :=
  Eq.refl (m : ℚ)

end Locates

/-! ## Doubles -/

/-- A double with its sign, in the form that the model computes with. -/
def unpacked (s : Sign) (x : Binary) : UnpackedFloat :=
  if h : x.significand = 0 then .zero s
  else .finite s x.significand x.exponent (Nat.pos_of_ne_zero h)

theorem unpacked_of_zero {s : Sign} {x : Binary} (h : x.significand = 0) :
    unpacked s x = .zero s :=
  dif_pos h

theorem unpacked_of_pos {s : Sign} {x : Binary} (h : 0 < x.significand) :
    unpacked s x = .finite s x.significand x.exponent h :=
  dif_neg h.ne'

/-- The least exponent at which a number keeps all its digits. -/
theorem targetExponent_eq (m : Nat) (e : ℤ) :
    Format.binary64.targetExponent (totalExponent m e) = max ((m.log2 : ℤ) + e - 52) (-1074) := by
  simp only [Format.targetExponent, totalExponent, Format.mantissaBits, Format.minExponent]
  norm_num
  omega

/-- A significand that fits stays at its place. -/
theorem shiftToTargetExponent_of_lt {m : Nat} {e : ℤ} (small : m < 2 ^ 53) (least : -1074 ≤ e) :
    shiftToTargetExponent Format.binary64 m e .exact = (⟨m, false, false⟩, e) := by
  have hlog : m.log2 < 53 := by
    rcases Nat.eq_zero_or_pos m with rfl | pos
    · decide
    · exact (Nat.log2_lt pos.ne').2 small
  have hshift : (Format.binary64.targetExponent (totalExponent m e) - e).toNat = 0 := by
    rw [targetExponent_eq]
    omega
  simp [shiftToTargetExponent, shiftToExponent, hshift, HShiftRight.hShiftRight, Nat.repeat,
    ExtendedMantissa.ofMantissaAndAccuracy]

/-- A significand that rounding made one digit too long is halved. -/
theorem shiftToTargetExponent_two_pow {e : ℤ} (least : -1074 ≤ e) :
    shiftToTargetExponent Format.binary64 (2 ^ 53) e .exact = (⟨2 ^ 52, false, false⟩, e + 1) := by
  have hshift : (Format.binary64.targetExponent (totalExponent (2 ^ 53) e) - e).toNat = 1 := by
    rw [targetExponent_eq, Nat.log2_two_pow]
    omega
  rw [shiftToTargetExponent, shiftToExponent, hshift]
  rfl

/-- The double with a significand that fits is the one that a number rounds to, if the significand
is the nearest. -/
theorem rounds_of_nearest {r : Nat} {t : ℤ} {v : ℚ} (h : Nearest r (v / 2 ^ t))
    (full : -1074 < t → 2 ^ 52 ≤ v / 2 ^ t) :
    Binary.Rounds ⟨r, t, decide (r = 2 ^ 52 ∧ -1074 < t)⟩ v := by
  have hquarters : Binary.quarters ⟨r, t, decide (r = 2 ^ 52 ∧ -1074 < t)⟩ v = 4 * (v / 2 ^ t) := by
    rw [Binary.quarters]
    dsimp only
    rw [zpow_sub₀ two_ne_zero, div_div_eq_mul_div, mul_comm v, mul_div_assoc]
    norm_num
  have hlow := h.low
  have hhigh := h.high
  by_cases narrow : r = 2 ^ 52 ∧ -1074 < t
  · have hbelow : Binary.below ⟨r, t, decide (r = 2 ^ 52 ∧ -1074 < t)⟩ = 1 := by
      simp [Binary.below, narrow]
    have hfull := full narrow.2
    have hr : (r : ℚ) = 2 ^ 52 := by exact_mod_cast narrow.1
    refine ⟨?_, ?_, fun _ => ?_⟩
    · rw [hquarters, hbelow]
      dsimp only
      linarith
    · rw [hquarters]
      dsimp only
      linarith
    · change r % 2 = 0
      rw [narrow.1]
      rfl
  · have hbelow : Binary.below ⟨r, t, decide (r = 2 ^ 52 ∧ -1074 < t)⟩ = 2 := by
      simp only [Binary.below, narrow, decide_false, Bool.false_eq_true, if_false]
    refine ⟨?_, ?_, fun tie => h.tie ?_⟩
    · rw [hquarters, hbelow]
      dsimp only
      linarith
    · rw [hquarters]
      dsimp only
      linarith
    · rw [hquarters, hbelow] at tie
      dsimp only at tie
      rcases tie with tie | tie
      · exact .inl (by linarith)
      · exact .inr (by linarith)

/-- A number that rounds up to the next power of two. -/
theorem rounds_two_pow {t : ℤ} {v : ℚ} (h : Nearest (2 ^ 53) (v / 2 ^ t)) (lt : v / 2 ^ t < 2 ^ 53) :
    Binary.Rounds ⟨2 ^ 52, t + 1, true⟩ v := by
  have hquarters : Binary.quarters ⟨2 ^ 52, t + 1, true⟩ v = 2 * (v / 2 ^ t) := by
    have hexponent : t + 1 - 2 = t - 1 := by omega
    rw [Binary.quarters]
    dsimp only
    rw [hexponent, zpow_sub₀ two_ne_zero, div_div_eq_mul_div, mul_comm v, mul_div_assoc]
    norm_num
  have hlow := h.low
  refine ⟨?_, ?_, fun _ => by norm_num⟩
  · rw [hquarters, Binary.below]
    push_cast at hlow ⊢
    simp only [if_true]
    linarith
  · rw [hquarters]
    push_cast
    linarith

section
variable {m : Nat} {e t : ℤ} {a : Accuracy} {v : ℚ}

/-- A number is not below the significand that locates it. -/
theorem Locates.mul_le (h : Locates (.ofMantissaAndAccuracy m a) (v / 2 ^ e)) : m * 2 ^ e ≤ v := by
  have hfloor := h.floor.1
  rwa [mantissa_ofMantissaAndAccuracy, le_div_iff₀ (by positivity)] at hfloor

/-- A number is below the significand after the one that locates it. -/
theorem Locates.lt_mul (h : Locates (.ofMantissaAndAccuracy m a) (v / 2 ^ e)) :
    v < (m + 1) * 2 ^ e := by
  have hceil := h.floor.2
  rwa [mantissa_ofMantissaAndAccuracy, div_lt_iff₀ (by positivity)] at hceil

/-- In units that leave at most 53 bits of the significand, a number is below a power of two. -/
theorem Locates.div_lt (h : Locates (.ofMantissaAndAccuracy m a) (v / 2 ^ e))
    (fits : (m.log2 : ℤ) + e - 52 ≤ t) : v / 2 ^ t < 2 ^ 53 := by
  have hlog : (m : ℚ) + 1 ≤ 2 ^ (m.log2 + 1) := by exact_mod_cast Nat.lt_log2_self
  have hunit : (0 : ℚ) ≤ 2 ^ e := by positivity
  rw [div_lt_iff₀ (by positivity)]
  calc v < (m + 1) * 2 ^ e := h.lt_mul
    _ ≤ 2 ^ (m.log2 + 1) * 2 ^ e := mul_le_mul_of_nonneg_right hlog hunit
    _ = 2 ^ (((m.log2 + 1 : Nat) : ℤ) + e) := by rw [zpow_add₀ two_ne_zero, zpow_natCast]
    _ ≤ 2 ^ ((53 : ℤ) + t) := zpow_le_zpow_right₀ one_le_two (by push_cast; omega)
    _ = 2 ^ 53 * 2 ^ t := by rw [zpow_add₀ two_ne_zero]; rfl

/-- In units that leave 53 bits of the significand, a number fills them. -/
theorem Locates.le_div (h : Locates (.ofMantissaAndAccuracy m a) (v / 2 ^ e)) (nonzero : m ≠ 0)
    (filled : t = (m.log2 : ℤ) + e - 52) : 2 ^ 52 ≤ v / 2 ^ t := by
  have hlog : (2 : ℚ) ^ m.log2 ≤ m := by exact_mod_cast Nat.log2_self_le nonzero
  have hunit : (0 : ℚ) ≤ 2 ^ e := by positivity
  rw [le_div_iff₀ (by positivity)]
  calc (2 : ℚ) ^ 52 * 2 ^ t = 2 ^ ((52 : ℤ) + t) := by rw [zpow_add₀ two_ne_zero]; rfl
    _ = 2 ^ ((m.log2 : ℤ) + e) := by congr 1; omega
    _ = 2 ^ m.log2 * 2 ^ e := by rw [zpow_add₀ two_ne_zero, zpow_natCast]
    _ ≤ m * 2 ^ e := mul_le_mul_of_nonneg_right hlog hunit
    _ ≤ v := h.mul_le

end

/-- Rounding makes the double that the exact number rounds to, if no digits are missing. -/
theorem roundWithAccuracy_eq {s : Sign} {m : Nat} {e : ℤ} {a : Accuracy} {v : ℚ}
    (located : Locates (.ofMantissaAndAccuracy m a) (v / 2 ^ e))
    (enough : 52 ≤ m.log2 ∨ e ≤ -1074) :
    ∃ x : Binary, x.Canonical ∧ x.Rounds v ∧
      roundWithAccuracy Format.binary64 s m e a = unpacked s x := by
  obtain ⟨t, ht⟩ : ∃ t, t = Format.binary64.targetExponent (totalExponent m e) := ⟨_, rfl⟩
  have htarget : t = max ((m.log2 : ℤ) + e - 52) (-1074) := ht.trans (targetExponent_eq m e)
  have least : -1074 ≤ t := by omega
  have lt : v / 2 ^ t < 2 ^ 53 := located.div_lt (by omega)
  have full : -1074 < t → 2 ^ 52 ≤ v / 2 ^ t := by
    intro normal
    refine located.le_div ?_ (by omega)
    rintro rfl
    rw [Nat.log2_zero] at htarget enough
    omega
  obtain ⟨k, hk⟩ : ∃ k : Nat, t = e + k := ⟨(t - e).toNat, by omega⟩
  have first : shiftToTargetExponent Format.binary64 m e a =
      (ExtendedMantissa.ofMantissaAndAccuracy m a >>> k, t) := by
    have hshift : (t - e).toNat = k := by omega
    rw [shiftToTargetExponent, ← ht, shiftToExponent, hshift, hk]
  have located' : Locates (ExtendedMantissa.ofMantissaAndAccuracy m a >>> k) (v / 2 ^ t) := by
    have h := located.shiftRight k
    rwa [div_div, ← zpow_natCast, ← zpow_add₀ two_ne_zero, ← hk] at h
  generalize ExtendedMantissa.ofMantissaAndAccuracy m a >>> k = em at first located'
  have nearest := located'.nearest
  generalize hr : em.roundedMantissa = r at nearest
  have hle : r ≤ 2 ^ 53 := nearest.le_of_lt (by exact_mod_cast lt)
  have hfull (normal : -1074 < t) : 2 ^ 52 ≤ r := nearest.le_of_le (by exact_mod_cast full normal)
  unfold roundWithAccuracy
  rw [first]
  dsimp only
  rw [hr]
  rcases Nat.lt_or_eq_of_le hle with small | rfl
  · rw [shiftToTargetExponent_of_lt small least]
    refine ⟨⟨r, t, decide (r = 2 ^ 52 ∧ -1074 < t)⟩, ⟨small, least, ?_, ?_⟩,
      rounds_of_nearest nearest full, rfl⟩
    · rcases Int.lt_or_eq_of_le least with normal | least
      · exact .inl (hfull normal)
      · exact .inr least.symm
    · exact decide_eq_true_iff
  · rw [shiftToTargetExponent_two_pow least]
    refine ⟨⟨2 ^ 52, t + 1, true⟩, ⟨by norm_num, ?_, .inl (Nat.le_refl _), ?_⟩,
      rounds_two_pow nearest lt, rfl⟩
    · dsimp only
      omega
    · simp only [true_iff, true_and]
      omega

end QueryPipeline.Double
