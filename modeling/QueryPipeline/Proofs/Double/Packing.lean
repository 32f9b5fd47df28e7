import QueryPipeline.Proofs.Double.Rounding

/-!
# Doubles and their bits

What the sixty-four bits of a double say: `Binary.ofFloat` reads from them what the model of doubles
unpacks (`IsFinite.unpack_eq`), and a double that can be stored is unpacked as it was packed
(`unpack_pack`). So a finite double is what packing makes of what `Binary.ofFloat` reads
(`IsFinite.eq_ofModel_pack`).
-/

namespace QueryPipeline.Double

open Float.Model Float.Model.UnpackedFloat

/-- The bits of a double. -/
abbrev Bits := BitVec Format.binary64.numBits

/-! ## Fields of the bits -/

theorem toNat_unpackMantissa (b : Bits) :
    (@unpackMantissa Format.binary64 b).toNat = b.toNat % 2 ^ 52 := by
  simp [unpackMantissa, BitVec.extractLsb, BitVec.extractLsb']

theorem toNat_unpackExponent (b : Bits) :
    (@unpackExponent Format.binary64 b).toNat = b.toNat / 2 ^ 52 % 2 ^ 11 := by
  simp [unpackExponent, BitVec.extractLsb, BitVec.extractLsb', Nat.shiftRight_eq_div_pow]

theorem toNat_unpackSign (b : Bits) :
    (@unpackSign Format.binary64 b).toNat = b.toNat / 2 ^ 63 := by
  have hb : b.toNat < 2 ^ 64 := b.isLt
  simp [unpackSign, BitVec.extractLsb, BitVec.extractLsb', Nat.shiftRight_eq_div_pow]
  omega

/-- The leading digit of a significand that uses all its digits is not stored. -/
theorem toNat_append_ofNat {m : Nat} (full : 2 ^ 52 ≤ m) (small : m < 2 ^ 53) :
    (1#1 ++ BitVec.ofNat 52 m).toNat = m := by
  rw [BitVec.toNat_append, ← Nat.shiftLeft_add_eq_or_of_lt (BitVec.ofNat 52 m).isLt,
    BitVec.toNat_ofNat, BitVec.toNat_ofNat, Nat.shiftLeft_eq]
  omega

/-! ## Unpacking what was packed -/

section
variable {s : Sign} {m : Nat} {e : ℤ} (pos : 0 < m)

/-- A double that uses all digits of its significand is packed with its exponent. -/
theorem pack_normal {biased : Nat} (hbiased : e + 1075 = biased) (most : biased < 2047)
    (hlog : m.log2 = 52) :
    UnpackedFloat.pack Format.binary64 (.finite s m e pos) =
      packComponents Format.binary64 s (BitVec.ofNat 11 biased) (BitVec.ofNat 52 m) := by
  have hexponent : (e + Format.binary64.exponentBias +
      Format.binary64.mantissaBitsWithoutImplicit).toNat = biased := by
    change (e + 1023 + 52).toNat = biased
    omega
  unfold UnpackedFloat.pack
  simp only [hexponent, hlog]
  have hbits : 52 + 1 = Format.binary64.mantissaBits := rfl
  rw [if_neg (by norm_num; omega), if_pos hbits]

/-- A double of the least exponent that does not use all digits is packed without an exponent. -/
theorem pack_subnormal (hlog : m.log2 < 52) :
    UnpackedFloat.pack Format.binary64 (.finite s m (-1074) pos) =
      packComponents Format.binary64 s 0#11 (BitVec.ofNat 52 m) := by
  have hexponent : ((-1074 : ℤ) + Format.binary64.exponentBias +
      Format.binary64.mantissaBitsWithoutImplicit).toNat = 1 := rfl
  have hbits : ¬ m.log2 + 1 = Format.binary64.mantissaBits := by
    change ¬ m.log2 + 1 = 53
    omega
  unfold UnpackedFloat.pack
  simp only [hexponent, hbits]
  rfl

/-- A double that can be stored is unpacked as it was packed. -/
theorem unpack_pack_normal (least : -1074 ≤ e) (most : e ≤ 971) (full : 2 ^ 52 ≤ m)
    (small : m < 2 ^ 53) :
    UnpackedFloat.unpack Format.binary64
      (UnpackedFloat.pack Format.binary64 (.finite s m e pos)) = .finite s m e pos := by
  obtain ⟨biased, hbiased⟩ : ∃ n : Nat, e + 1075 = n := ⟨(e + 1075).toNat, by omega⟩
  have stored : (BitVec.ofNat 11 biased).toNat = biased := by
    rw [BitVec.toNat_ofNat]
    omega
  have notAll : ¬ BitVec.ofNat 11 biased = -1#11 := by
    intro h
    have := congrArg BitVec.toNat h
    rw [stored] at this
    change biased = 2047 at this
    omega
  have notZero : ¬ BitVec.ofNat 11 biased = 0#11 := by
    intro h
    have := congrArg BitVec.toNat h
    rw [stored] at this
    change biased = 0 at this
    omega
  have hlog : m.log2 = 52 := (Nat.log2_eq_iff pos.ne').2 ⟨full, small⟩
  rw [pack_normal pos hbiased (by omega) hlog]
  unfold UnpackedFloat.unpack
  simp only [unpackMantissa_packComponents, unpackExponent_packComponents,
    unpackSign_packComponents, Sign.ofBitVec_toBitVec, notAll, notZero, if_false, stored,
    toNat_append_ofNat full small]
  congr 1
  change (biased : ℤ) - (1023 + 52) = e
  omega

/-- A double of the least exponent is unpacked as it was packed. -/
theorem unpack_pack_subnormal (small : m < 2 ^ 52) :
    UnpackedFloat.unpack Format.binary64
      (UnpackedFloat.pack Format.binary64 (.finite s m (-1074) pos)) =
        .finite s m (-1074) pos := by
  have stored : (BitVec.ofNat 52 m).toNat = m := by
    rw [BitVec.toNat_ofNat]
    omega
  have notZero : ¬ BitVec.ofNat 52 m = 0#52 := by
    intro h
    have := congrArg BitVec.toNat h
    rw [stored] at this
    change m = 0 at this
    omega
  have notAll : ¬ 0#11 = -1#11 := by decide
  rw [pack_subnormal pos ((Nat.log2_lt pos.ne').2 small)]
  unfold UnpackedFloat.unpack
  simp only [unpackMantissa_packComponents, unpackExponent_packComponents,
    unpackSign_packComponents, Sign.ofBitVec_toBitVec, notAll, notZero, if_false, if_true, dif_neg,
    not_false_eq_true, stored]
  rfl

end

/-- A double that can be stored is unpacked as it was packed. -/
theorem unpack_pack (s : Sign) {x : Binary} (c : x.Canonical) (most : x.exponent ≤ 971) :
    (Float.Model.pack (unpacked s x)).unpack = unpacked s x := by
  change UnpackedFloat.unpack Format.binary64 (UnpackedFloat.pack Format.binary64 (unpacked s x)) = _
  rcases Nat.eq_zero_or_pos x.significand with zero | pos
  · rw [unpacked_of_zero zero]
    cases s <;> rfl
  rw [unpacked_of_pos pos]
  obtain ⟨m, e, narrow⟩ := x
  rcases Nat.lt_or_ge m (2 ^ 52) with small | full
  · obtain rfl : e = -1074 := c.full.resolve_left (Nat.not_le.2 small)
    exact unpack_pack_subnormal pos small
  · exact unpack_pack_normal pos c.least most full c.small

/-! ## What the bits say -/

/-- The sign of a double. -/
def signOf (x : Float) : Sign :=
  if x.toBits.toNat / 0x8000000000000000 = 1 then .negative else .positive

/-- A double that is neither infinite nor undefined. -/
def IsFinite (x : Float) : Prop :=
  (x.isNaN || x.isInf) = false

section
variable {x : Float}

/-- The exponent in the bits of a finite double is not the one that marks the others. -/
theorem IsFinite.unpackExponent_ne (h : IsFinite x) :
    @unpackExponent Format.binary64 x.toBits.toBitVec ≠ -1#11 := by
  intro marked
  have hunpack : (∃ s, x.toModel.unpack = .infinity s) ∨ x.toModel.unpack = .notANumber := by
    change (∃ s, UnpackedFloat.unpack Format.binary64 x.toBits.toBitVec = .infinity s) ∨
      UnpackedFloat.unpack Format.binary64 x.toBits.toBitVec = _
    unfold UnpackedFloat.unpack
    dsimp only
    rw [if_pos marked]
    split
    · exact .inl ⟨_, rfl⟩
    · exact .inr rfl
  have hfinite : (x.toModel.unpack.isNaN || x.toModel.unpack.isInf) = false := h
  rcases hunpack with ⟨s, hunpack⟩ | hunpack
  · rw [hunpack] at hfinite
    cases hfinite
  · rw [hunpack] at hfinite
    cases hfinite

/-- The exponent in the bits of a finite double is less than the greatest. -/
theorem IsFinite.biased_lt (h : IsFinite x) :
    x.toBits.toNat / 0x10000000000000 % 0x800 < 2047 := by
  have hne : x.toBits.toNat / 0x10000000000000 % 0x800 ≠ 2047 := by
    intro heq
    refine h.unpackExponent_ne (BitVec.eq_of_toNat_eq ?_)
    rw [toNat_unpackExponent]
    exact heq
  omega

/-- A finite double is not too great. -/
theorem IsFinite.most (h : IsFinite x) : (Binary.ofFloat x).exponent ≤ 971 := by
  have hbiased := h.biased_lt
  unfold Binary.ofFloat
  dsimp only
  split
  · exact (by decide : (-1074 : ℤ) ≤ 971)
  · dsimp only
    omega

/-- The bits of a double say a form that can be stored. -/
theorem canonical_ofFloat (x : Float) : (Binary.ofFloat x).Canonical := by
  have hfraction : x.toBits.toNat % 0x10000000000000 < 0x10000000000000 := Nat.mod_lt _ (by decide)
  unfold Binary.ofFloat
  dsimp only
  split
  · refine ⟨?_, Int.le_refl _, .inr rfl, ?_⟩
    · dsimp only
      omega
    · simp
  · next normal =>
    refine ⟨?_, ?_, .inl ?_, ?_⟩
    · dsimp only
      omega
    · dsimp only
      omega
    · dsimp only
      omega
    · dsimp only
      rw [Bool.and_eq_true, beq_iff_eq, decide_eq_true_eq]
      omega

/-- The sign in the bits. -/
theorem ofBitVec_unpackSign (x : Float) :
    Sign.ofBitVec (@unpackSign Format.binary64 x.toBits.toBitVec) = signOf x := by
  have hsign : (@unpackSign Format.binary64 x.toBits.toBitVec).toNat = x.toBits.toNat / 2 ^ 63 :=
    toNat_unpackSign x.toBits.toBitVec
  have hbits := x.toBits.toNat_lt
  rw [Sign.ofBitVec, signOf]
  split
  · next zero =>
    rw [zero] at hsign
    rw [if_neg (by change 0 = _ at hsign; omega)]
  · next nonzero =>
    have : (@unpackSign Format.binary64 x.toBits.toBitVec).toNat ≠ 0 :=
      fun h => nonzero (BitVec.eq_of_toNat_eq h)
    rw [if_pos (by omega)]

/-- A finite double is the one that its bits say. -/
theorem IsFinite.unpack_eq (h : IsFinite x) :
    x.toModel.unpack = unpacked (signOf x) (.ofFloat x) := by
  have hexponent : (@unpackExponent Format.binary64 x.toBits.toBitVec).toNat =
      x.toBits.toNat / 0x10000000000000 % 0x800 := toNat_unpackExponent x.toBits.toBitVec
  have hmantissa : (@unpackMantissa Format.binary64 x.toBits.toBitVec).toNat =
      x.toBits.toNat % 0x10000000000000 := toNat_unpackMantissa x.toBits.toBitVec
  change UnpackedFloat.unpack Format.binary64 x.toBits.toBitVec = _
  unfold UnpackedFloat.unpack Binary.ofFloat
  dsimp only
  rw [if_neg h.unpackExponent_ne, ofBitVec_unpackSign]
  split
  · next zero =>
    have hzero : x.toBits.toNat / 0x10000000000000 % 0x800 = 0 := by
      rw [← hexponent, zero]
      rfl
    rw [if_pos hzero]
    split
    · next empty =>
      have hfraction : x.toBits.toNat % 0x10000000000000 = 0 := by
        rw [← hmantissa, empty]
        rfl
      exact (unpacked_of_zero hfraction).symm
    · next digits =>
      have pos : 0 < x.toBits.toNat % 0x10000000000000 := by
        rw [← hmantissa]
        exact Nat.pos_of_ne_zero fun h => digits (BitVec.eq_of_toNat_eq h)
      rw [unpacked_of_pos pos]
      congr 1
      rw [zero]
      rfl
  · next normal =>
    have hne : x.toBits.toNat / 0x10000000000000 % 0x800 ≠ 0 := by
      rw [← hexponent]
      exact fun h => normal (BitVec.eq_of_toNat_eq h)
    have pos : 0 < 0x10000000000000 + x.toBits.toNat % 0x10000000000000 := by omega
    rw [if_neg hne, unpacked_of_pos pos]
    have hfull : (1#1 ++ @unpackMantissa Format.binary64 x.toBits.toBitVec).toNat =
        0x10000000000000 + x.toBits.toNat % 0x10000000000000 := by
      rw [BitVec.toNat_append, ← Nat.shiftLeft_add_eq_or_of_lt (BitVec.isLt _), hmantissa]
      rfl
    congr 1
    · change ((@unpackExponent Format.binary64 x.toBits.toBitVec).toNat : ℤ) - (1023 + 52) = _
      rw [hexponent]
      dsimp only
      omega

/-- A finite double is what packing makes of what it is unpacked to. -/
theorem IsFinite.eq_ofModel_pack (h : IsFinite x) :
    Float.ofModel (.pack (unpacked (signOf x) (.ofFloat x))) = x := by
  rw [← h.unpack_eq]
  exact Float.ofBits_toBits x

end

end QueryPipeline.Double
