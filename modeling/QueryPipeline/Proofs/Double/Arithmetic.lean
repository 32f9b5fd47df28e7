import QueryPipeline.Double.Read
import QueryPipeline.Proofs.Double.Packing
import QueryPipeline.Proofs.Double.Shortest

/-!
# Products and quotients of doubles

The product of two doubles is the double that their exact product rounds to, and so is their
quotient, as long as it is not too great (`Denotes.mul`, `Denotes.div`).
-/

namespace QueryPipeline.Double

open Float.Model Float.Model.UnpackedFloat

/-- The double with a sign and an absolute value. -/
def toFloat (s : Sign) (x : Binary) : Float :=
  .ofModel (.pack (unpacked s x))

/-- A double without a minus sign is the one with a given significand and exponent. -/
structure Denotes (x : Float) (b : Binary) : Prop where
  canonical : b.Canonical
  unpack : x.toModel.unpack = unpacked .positive b

/-- A double that can be stored is what its significand and exponent say. -/
theorem denotes_toFloat {b : Binary} (c : b.Canonical) (most : b.exponent ≤ 971) :
    Denotes (toFloat .positive b) b :=
  ⟨c, unpack_pack .positive c most⟩

/-- A finite double is what its bits say. -/
theorem IsFinite.toFloat_ofFloat {x : Float} (h : IsFinite x) :
    toFloat (signOf x) (.ofFloat x) = x :=
  h.eq_ofModel_pack

/-- A finite double without a minus sign is what its bits say. -/
theorem IsFinite.denotes {x : Float} (h : IsFinite x) (positive : signOf x = .positive) :
    Denotes x (.ofFloat x) :=
  ⟨canonical_ofFloat x, by rw [h.unpack_eq, positive]⟩

/-- A double of given sign, significand and exponent has these. -/
theorem unpacked_injective {s t : Sign} {x y : Binary} (cx : x.Canonical) (cy : y.Canonical)
    (h : unpacked s x = unpacked t y) : s = t ∧ x = y := by
  have same (hsign : s = t) (hsignificand : x.significand = y.significand)
      (hexponent : x.exponent = y.exponent) : s = t ∧ x = y := by
    refine ⟨hsign, ?_⟩
    have hnarrow : x.narrowBelow = y.narrowBelow := by
      rw [Bool.eq_iff_iff, cx.narrow, cy.narrow, hexponent, hsignificand]
    cases x
    cases y
    cases hexponent
    cases hsignificand
    cases hnarrow
    rfl
  rcases Nat.eq_zero_or_pos x.significand with zero | pos <;>
    rcases Nat.eq_zero_or_pos y.significand with zero' | pos'
  · rw [unpacked_of_zero zero, unpacked_of_zero zero'] at h
    have least := cx.full.resolve_left (by omega)
    have least' := cy.full.resolve_left (by omega)
    exact same (UnpackedFloat.zero.inj h) (zero.trans zero'.symm) (least.trans least'.symm)
  · rw [unpacked_of_zero zero, unpacked_of_pos pos'] at h
    cases h
  · rw [unpacked_of_pos pos, unpacked_of_zero zero'] at h
    cases h
  · rw [unpacked_of_pos pos, unpacked_of_pos pos'] at h
    obtain ⟨hsign, hsignificand, hexponent⟩ := UnpackedFloat.finite.inj h
    exact same hsign hsignificand hexponent

/-- A double that can be stored is finite, and its bits say what it was made of. -/
theorem toFloat_spec (s : Sign) {b : Binary} (c : b.Canonical) (most : b.exponent ≤ 971) :
    IsFinite (toFloat s b) ∧ signOf (toFloat s b) = s ∧ Binary.ofFloat (toFloat s b) = b := by
  have hunpack : (toFloat s b).toModel.unpack = unpacked s b := unpack_pack s c most
  have finite : IsFinite (toFloat s b) := by
    change ((toFloat s b).toModel.unpack.isNaN || (toFloat s b).toModel.unpack.isInf) = false
    rw [hunpack, unpacked]
    split <;> rfl
  obtain ⟨hsign, hbinary⟩ :=
    unpacked_injective (canonical_ofFloat _) c (finite.unpack_eq.symm.trans hunpack)
  exact ⟨finite, hsign, hbinary⟩

/-- A significand that uses all its digits is not zero. -/
theorem pos_of_full {m : Nat} (full : 2 ^ 52 ≤ m) : 0 < m :=
  Nat.lt_of_lt_of_le (by norm_num) full

/-- The digits of a quotient with what is left. -/
theorem locates_div (n : Nat) {d : Nat} (pos : 0 < d) :
    Locates (.ofMantissaAndAccuracy (n / d) (accuracyOfFraction (n % d) d)) ((n : ℚ) / d) := by
  have hd : (0 : ℚ) < d := by exact_mod_cast pos
  have hsplit : (n : ℚ) / d = (n / d : Nat) + (n % d : Nat) / d := by
    rw [div_eq_iff hd.ne', add_mul, div_mul_cancel₀ _ hd.ne']
    exact_mod_cast (Nat.div_add_mod' n d).symm
  have hlt : ((n % d : Nat) : ℚ) < d := by exact_mod_cast Nat.mod_lt n pos
  have hfraction : ((n % d : Nat) : ℚ) / d < 1 := (div_lt_one hd).2 hlt
  rw [hsplit, accuracyOfFraction]
  split
  · next zero =>
    rw [zero, Nat.cast_zero, zero_div, add_zero]
    exact .exact _
  · next nonzero =>
    have hpos : (0 : ℚ) < (n % d : Nat) / d :=
      div_pos (by exact_mod_cast Nat.pos_of_ne_zero nonzero) hd
    cases hcompare : compare (2 * (n % d)) d with
    | lt =>
      have hhalf : ((n % d : Nat) : ℚ) / d < 1 / 2 := by
        rw [div_lt_div_iff₀ hd two_pos]
        have : (2 * (n % d : Nat) : ℚ) < d := by exact_mod_cast Nat.compare_eq_lt.1 hcompare
        linarith
      refine ⟨?_, ?_⟩ <;>
        · rw [mantissa_ofMantissaAndAccuracy]
          linarith
    | eq =>
      have hhalf : ((n % d : Nat) : ℚ) / d = 1 / 2 := by
        rw [div_eq_div_iff hd.ne' two_ne_zero]
        have : (2 * (n % d : Nat) : ℚ) = d := by exact_mod_cast Nat.compare_eq_eq.1 hcompare
        linarith
      change _ = _
      rw [hhalf, mantissa_ofMantissaAndAccuracy]
    | gt =>
      have hhalf : 1 / 2 < ((n % d : Nat) : ℚ) / d := by
        rw [div_lt_div_iff₀ two_pos hd]
        have : (d : ℚ) < 2 * (n % d : Nat) := by exact_mod_cast Nat.compare_eq_gt.1 hcompare
        linarith
      refine ⟨?_, ?_⟩ <;>
        · rw [mantissa_ofMantissaAndAccuracy]
          linarith

/-- A quotient in units in which the digits of the dividend are shifted. -/
theorem value_div_value {a b : Binary} {t : ℤ} {k : Nat} (pos : 0 < b.significand)
    (shift : a.exponent - b.exponent = t + k) :
    a.value / b.value / 2 ^ t = (a.significand * 2 ^ k : Nat) / b.significand := by
  have hb : (2 : ℚ) ^ b.exponent ≠ 0 := by positivity
  have ht : (2 : ℚ) ^ t ≠ 0 := by positivity
  have hsignificand : (b.significand : ℚ) ≠ 0 := by exact_mod_cast pos.ne'
  have hexponent : a.exponent = b.exponent + (t + k) := by omega
  rw [Binary.value, Binary.value, hexponent, zpow_add₀ two_ne_zero, zpow_add₀ two_ne_zero,
    zpow_natCast]
  push_cast
  field_simp

/-- A significand that is shifted to 106 digits, divided by one of 53, leaves 53 digits. -/
theorem le_log2_div {m d k : Nat} (pos : 0 < m) (divisor : 0 < d) (small : d < 2 ^ 53)
    (shifted : m.log2 + k = 105) : 52 ≤ (m * 2 ^ k / d).log2 := by
  have hlarge : 2 ^ 105 ≤ m * 2 ^ k := by
    rw [← shifted, Nat.pow_add]
    exact Nat.mul_le_mul_right _ (Nat.log2_self_le pos.ne')
  have hquotient : 2 ^ 52 ≤ m * 2 ^ k / d := by
    rw [Nat.le_div_iff_mul_le divisor]
    calc 2 ^ 52 * d ≤ 2 ^ 52 * 2 ^ 53 := Nat.mul_le_mul_left _ small.le
      _ = 2 ^ 105 := by rw [← Nat.pow_add]
      _ ≤ m * 2 ^ k := hlarge
  exact (Nat.le_log2 (pos_of_full hquotient).ne').2 hquotient

namespace Denotes

variable {x y : Float} {a b : Binary}

/-- A product is rounded once. -/
theorem mul (hx : Denotes x a) (hy : Denotes y b) (pos : 0 < a.significand)
    (full : 2 ^ 52 ≤ b.significand) :
    ∃ c : Binary, c.Canonical ∧ c.Rounds (a.value * b.value) ∧ x * y = toFloat .positive c := by
  have hpos := pos_of_full full
  have located : Locates (.ofMantissaAndAccuracy (a.significand * b.significand) .exact)
      (a.value * b.value / 2 ^ (a.exponent + b.exponent)) := by
    have hvalue : a.value * b.value / 2 ^ (a.exponent + b.exponent) =
        (a.significand * b.significand : Nat) := by
      have ha : (2 : ℚ) ^ a.exponent ≠ 0 := by positivity
      have hb : (2 : ℚ) ^ b.exponent ≠ 0 := by positivity
      rw [Binary.value, Binary.value, zpow_add₀ two_ne_zero]
      push_cast
      field_simp
    rw [hvalue]
    exact .exact _
  have enough : 52 ≤ (a.significand * b.significand).log2 := by
    refine (Nat.le_log2 (Nat.mul_pos pos hpos).ne').2 (Nat.le_trans full ?_)
    exact Nat.le_mul_of_pos_left _ pos
  obtain ⟨c, canonical, rounds, heq⟩ := roundWithAccuracy_eq (s := .positive) located (.inl enough)
  refine ⟨c, canonical, rounds, ?_⟩
  change Float.ofModel (.pack (UnpackedFloat.mul Format.binary64 x.toModel.unpack y.toModel.unpack)) = _
  rw [hx.unpack, hy.unpack, unpacked_of_pos pos, unpacked_of_pos hpos, toFloat, ← heq]
  rfl

/-- A quotient is rounded once. -/
theorem div (hx : Denotes x a) (hy : Denotes y b) (pos : 0 < a.significand)
    (full : 2 ^ 52 ≤ b.significand) :
    ∃ c : Binary, c.Canonical ∧ c.Rounds (a.value / b.value) ∧ x / y = toFloat .positive c := by
  have hpos := pos_of_full full
  have hlog : b.significand.log2 = 52 :=
    (Nat.log2_eq_iff hpos.ne').2 ⟨full, hy.canonical.small⟩
  have hsmall : a.significand.log2 < 53 := (Nat.log2_lt pos.ne').2 hx.canonical.small
  obtain ⟨t, ht⟩ : ∃ t, t = min (a.exponent - b.exponent) (Format.binary64.targetExponent
      (totalExponent a.significand a.exponent - totalExponent b.significand b.exponent)) := ⟨_, rfl⟩
  obtain ⟨k, hk⟩ : ∃ k : Nat, a.exponent - b.exponent = t + k :=
    ⟨(a.exponent - b.exponent - t).toNat, by omega⟩
  have htarget : t = min (a.exponent - b.exponent)
      (max (a.significand.log2 + a.exponent - b.exponent - 105) (-1074)) := by
    rw [ht]
    simp only [Format.targetExponent, totalExponent, Format.mantissaBits, Format.minExponent, hlog]
    norm_num
    omega
  have hcore : divCore Format.binary64 a.significand a.exponent b.significand b.exponent =
      (a.significand * 2 ^ k / b.significand, t,
        accuracyOfFraction (a.significand * 2 ^ k % b.significand) b.significand) := by
    have hshift : (a.exponent - b.exponent - t).toNat = k := by omega
    rw [divCore]
    simp only [← ht, hshift, Nat.shiftLeft_eq]
  have located : Locates (.ofMantissaAndAccuracy (a.significand * 2 ^ k / b.significand)
      (accuracyOfFraction (a.significand * 2 ^ k % b.significand) b.significand))
      (a.value / b.value / 2 ^ t) := by
    rw [value_div_value hpos hk]
    exact locates_div _ hpos
  have enough : 52 ≤ (a.significand * 2 ^ k / b.significand).log2 ∨ t ≤ -1074 := by
    rcases le_or_gt t (-1074) with least | normal
    · exact .inr least
    · exact .inl (le_log2_div pos hpos hy.canonical.small (by omega))
  obtain ⟨c, canonical, rounds, heq⟩ := roundWithAccuracy_eq (s := .positive) located enough
  refine ⟨c, canonical, rounds, ?_⟩
  change Float.ofModel (.pack (UnpackedFloat.div Format.binary64 x.toModel.unpack y.toModel.unpack)) = _
  rw [hx.unpack, hy.unpack, unpacked_of_pos pos, unpacked_of_pos hpos, toFloat, ← heq]
  unfold UnpackedFloat.div
  dsimp only
  rw [hcore]
  rfl

end Denotes

end QueryPipeline.Double
