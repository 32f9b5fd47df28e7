import QueryPipeline.Proofs.Double.Error
import QueryPipeline.Proofs.Double.Text

/-!
# Doubles read back

The text of a finite double is a number that is read as a double again (`spells_numeral`,
`read_numeral`). The reader rounds more than once, so that it may miss the last place; it gives the
double itself if the digits of the text are few and not scaled far (`reread_of_isShort`).
-/

namespace QueryPipeline.Double

open Json
open Float.Model

/-- The number that the text of a double is. -/
def numeral (x : Float) : Numeral :=
  (scanNumber (json.text x)).1

/-- The double that is read from the text of a double. -/
def reread (x : Float) : Float :=
  match (numeral x).read with
  | .ok (.double y) => y
  | _ => x

/-- The digits of the text of a double are a whole number that a double holds, and so is the power
of ten that scales them. -/
def IsShort (x : Float) : Prop :=
  ∃ lexeme, numeral x = .written lexeme ∧ lexeme.significand < 2 ^ 53 ∧ -22 ≤ lexeme.place ∧
    lexeme.place ≤ 22

/-! ## The text -/

/-- The shortest decimal of a double is not scaled very far. -/
theorem Binary.Positive.exponent_shortest {x : Binary} (h : x.Positive) (tie : Tie) :
    -500 < (x.shortest tie).exponent ∧ (x.shortest tie).exponent < 500 := by
  obtain ⟨rounds, pos, digits⟩ := h.shortest tie
  have hlow := rounds.low
  have hhigh := rounds.high
  have hunit : (0 : ℚ) < 2 ^ (x.exponent - 2) := by positivity
  rw [Binary.quarters, le_div_iff₀ hunit] at hlow
  rw [Binary.quarters, div_le_iff₀ hunit] at hhigh
  have hpos : (1 : ℚ) ≤ x.significand := by exact_mod_cast h.pos
  have hsmall : (x.significand : ℚ) + 1 ≤ 2 ^ 53 := by exact_mod_cast h.small
  have hbelow := x.below_le
  have hleast := h.least
  have hmost := h.most
  generalize x.shortest tie = d at pos digits hlow hhigh
  have hdigits : (1 : ℚ) ≤ d.digits := by exact_mod_cast pos
  have hdigits' : (d.digits : ℚ) ≤ 10 ^ 17 := by exact_mod_cast digits
  have hten : (0 : ℚ) < 10 ^ d.exponent := by positivity
  constructor
  · have hvalue : (10 : ℚ) ^ (-400 : ℤ) < 10 ^ (18 + d.exponent) := by
      calc (10 : ℚ) ^ (-400 : ℤ) ≤ 2 ^ (-1075 : ℤ) :=
            Binary.ten_zpow_le_two_zpow (by norm_num) (by norm_num)
        _ ≤ 2 ^ (1 + (x.exponent - 2)) := zpow_le_zpow_right₀ one_le_two (by omega)
        _ = 2 * 2 ^ (x.exponent - 2) := by rw [zpow_add₀ two_ne_zero, zpow_one]
        _ ≤ (4 * x.significand - x.below) * 2 ^ (x.exponent - 2) :=
            mul_le_mul_of_nonneg_right (by linarith) hunit.le
        _ ≤ d.value := hlow
        _ ≤ 10 ^ 17 * 10 ^ d.exponent := mul_le_mul_of_nonneg_right hdigits' hten.le
        _ < 10 ^ 18 * 10 ^ d.exponent := mul_lt_mul_of_pos_right (by norm_num) hten
        _ = 10 ^ (18 + d.exponent) := by
            rw [zpow_add₀ (by norm_num)]
            rfl
    have := (zpow_lt_zpow_iff_right₀ (by norm_num : (1 : ℚ) < 10)).1 hvalue
    omega
  · have hvalue : (10 : ℚ) ^ d.exponent ≤ 10 ^ (400 : ℤ) := by
      calc (10 : ℚ) ^ d.exponent ≤ d.digits * 10 ^ d.exponent := le_mul_of_one_le_left hten.le hdigits
        _ ≤ (4 * x.significand + 2) * 2 ^ (x.exponent - 2) := hhigh
        _ ≤ 2 ^ 55 * 2 ^ (x.exponent - 2) := mul_le_mul_of_nonneg_right (by linarith) hunit.le
        _ = 2 ^ (55 + (x.exponent - 2)) := by
            rw [zpow_add₀ two_ne_zero]
            rfl
        _ ≤ 2 ^ (1024 : ℤ) := zpow_le_zpow_right₀ one_le_two (by omega)
        _ ≤ 10 ^ (400 : ℤ) := Binary.two_zpow_le_ten_zpow (by norm_num) (by norm_num)
    have := (zpow_le_zpow_iff_right₀ (by norm_num : (1 : ℚ) < 10)).1 hvalue
    omega

/-- A decimal of a double is written as a number that renders it. -/
theorem exists_spellsNumber_layout {n : Nat} {e : ℤ} (pos : 0 < n) (digits : n ≤ 10 ^ 17)
    (low : -500 < e) (high : e < 500) {sign : List Char} {negative : Bool}
    (hsign : SpellsSign sign negative) {leading : ℤ} {isPlain : Bool}
    (hleading : e + (Text.natural n).length - 1 = leading)
    (hplain : (json.positional.all fun range => range.1 ≤ leading && leading ≤ range.2) = isPlain) :
    ∃ lexeme, SpellsNumber (sign ++ if isPlain = true then json.positionalText (Text.natural n) e
        else exponentText (Text.natural n) e) (.written lexeme) ∧
      lexeme.negative = negative ∧ Renders ⟨n, e⟩ lexeme := by
  have hsome : 0 < (Text.natural n).length := List.length_pos_of_ne_nil (Text.natural_ne_nil n)
  have small : n < 0x10000000000000000 := by omega
  cases isPlain with
  | true =>
    have hrange : leading ≤ 15 := by
      simp only [json, Option.all_some, Bool.and_eq_true, decide_eq_true_eq] at hplain
      exact hplain.2
    rw [if_pos rfl]
    rcases le_or_gt 0 e with whole | fraction
    · refine spells_positionalText_whole hsign pos whole ?_
      have hn : n < 10 ^ (Text.natural n).length :=
        (Nat.length_toDigits_le_iff (by decide) hsome).1 (Nat.le_refl _)
      calc n * 10 ^ e.toNat < 10 ^ (Text.natural n).length * 10 ^ e.toNat :=
            Nat.mul_lt_mul_of_pos_right hn (by positivity)
        _ = 10 ^ ((Text.natural n).length + e.toNat) := (Nat.pow_add _ _ _).symm
        _ ≤ 10 ^ 17 := Nat.pow_le_pow_right (by decide) (by omega)
    · exact spells_positionalText_fraction hsign pos fraction small
  | false =>
    rw [if_neg Bool.false_ne_true]
    refine spells_exponentText hsign pos small ?_
    have hlength : (Text.natural n).length ≤ 18 :=
      (Nat.length_toDigits_le_iff (by decide) (by decide)).2 (Nat.lt_of_le_of_lt digits (by decide))
    unfold maxWrittenExponent
    omega

/-- A double is equal to zero if its significand is. -/
theorem IsFinite.beq_zero {x : Float} (h : IsFinite x) :
    (x == 0.0) = decide ((Binary.ofFloat x).significand = 0) := by
  have hzero : (0.0 : Float).toModel.unpack = .zero .positive := rfl
  change UnpackedFloat.beq x.toModel.unpack (0.0 : Float).toModel.unpack = _
  rw [hzero, h.unpack_eq]
  rcases Nat.eq_zero_or_pos (Binary.ofFloat x).significand with zero | pos
  · rw [unpacked_of_zero zero, zero]
    cases signOf x <;> rfl
  · rw [unpacked_of_pos pos, decide_eq_false pos.ne']
    cases signOf x <;> rfl

/-- A finite double other than zero is stored in its form. -/
theorem IsFinite.positive {x : Float} (h : IsFinite x) (pos : 0 < (Binary.ofFloat x).significand) :
    (Binary.ofFloat x).Positive :=
  ⟨canonical_ofFloat x, pos, h.most⟩

/-- Whether a double has a minus sign. -/
def isNegative (x : Float) : Bool :=
  x.toBits.toNat / 0x8000000000000000 == 1

/-- The sign of a double as it is written. -/
theorem spellsSign_isNegative (x : Float) :
    SpellsSign (if x.toBits.toNat / 0x8000000000000000 = 1 then ['-'] else []) (isNegative x) := by
  unfold isNegative
  split
  · next h =>
    rw [h]
    exact .negative
  · next h =>
    rw [beq_eq_false_iff_ne.2 h]
    exact .positive

/-- The text of a finite double is a number: a zero, or one that renders its shortest decimal. -/
theorem IsFinite.exists_spellsNumber {x : Float} (h : IsFinite x) :
    ∃ lexeme, SpellsNumber (json.text x) (.written lexeme) ∧ lexeme.negative = isNegative x ∧
      (((Binary.ofFloat x).significand = 0 ∧ lexeme = ⟨isNegative x, ['0'], ['0'], none⟩) ∨
        (0 < (Binary.ofFloat x).significand ∧
          Renders ((Binary.ofFloat x).shortest .toEven) lexeme)) := by
  obtain ⟨defined, bounded⟩ := Bool.or_eq_false_iff.1 h
  have hsign := spellsSign_isNegative x
  unfold Layout.text Layout.absText
  simp only [defined, bounded, h.beq_zero]
  rcases Nat.eq_zero_or_pos (Binary.ofFloat x).significand with zero | pos
  · have spells := SpellsNumber.mk hsign allDigits_zero (fun rest h => (List.cons.inj h).2.symm)
      (.some allDigits_zero) .none
    rw [zero]
    exact ⟨_, spells, rfl, .inl ⟨rfl, rfl⟩⟩
  · have hpositive := h.positive pos
    obtain ⟨-, digitsPos, digits⟩ := hpositive.shortest .toEven
    obtain ⟨low, high⟩ := hpositive.exponent_shortest .toEven
    obtain ⟨lexeme, spells, negative, renders⟩ :=
      exists_spellsNumber_layout digitsPos digits low high hsign rfl rfl
    rw [decide_eq_false pos.ne']
    exact ⟨lexeme, spells, negative, .inr ⟨pos, renders⟩⟩

/-! ## The number that is read -/

/-- A number may be all that there is. -/
theorem endsNumber_nil : EndsNumber [] := by
  simp [EndsNumber]

/-- The text of a finite double is scanned as a number, to its end. -/
theorem spells_numeral {x : Float} (h : IsFinite x) : SpellsNumber (json.text x) (numeral x) := by
  obtain ⟨lexeme, spells, -⟩ := h.exists_spellsNumber
  have hscan := scanNumber_of_spells spells endsNumber_nil
  rw [List.append_nil] at hscan
  rw [numeral, hscan]
  exact spells

/-- The number in the text of a finite double: a zero, or one that renders its shortest decimal. -/
theorem IsFinite.exists_numeral {x : Float} (h : IsFinite x) :
    ∃ lexeme, numeral x = .written lexeme ∧ lexeme.negative = isNegative x ∧
      (((Binary.ofFloat x).significand = 0 ∧ lexeme = ⟨isNegative x, ['0'], ['0'], none⟩) ∨
        (0 < (Binary.ofFloat x).significand ∧
          Renders ((Binary.ofFloat x).shortest .toEven) lexeme)) := by
  obtain ⟨lexeme, spells, known⟩ := h.exists_spellsNumber
  have hscan := scanNumber_of_spells spells endsNumber_nil
  rw [List.append_nil] at hscan
  exact ⟨lexeme, congrArg Prod.fst hscan, known⟩

/-- A number that renders a decimal is read by scaling its digits once. -/
theorem Renders.quantity_eq {d : Decimal} {lexeme : Lexeme} (h : Renders d lexeme) :
    lexeme.quantity = scaled lexeme.negative lexeme.significand lexeme.place :=
  Lexeme.quantity_eq_scaled h.small h.double h.bound

/-- A number that renders the shortest decimal of a double can be read. -/
theorem Renders.exists_ofParts? {x : Binary} {lexeme : Lexeme} (positive : x.Positive)
    (h : Renders (x.shortest .toEven) lexeme) :
    ∃ y, ofParts? lexeme.significand lexeme.place = some y := by
  rcases h.same with ⟨hsignificand, hplace⟩ | ⟨hplace, -⟩
  · rw [hsignificand, hplace]
    exact exists_ofParts?_shortest positive
  · rw [hplace]
    exact ⟨_, rfl⟩

/-- A zero is read with its sign. -/
theorem quantity_zero (negative : Bool) :
    Lexeme.quantity ⟨negative, ['0'], ['0'], none⟩ = .ok (.double (signed negative 0.0)) := by
  cases negative <;> rfl

/-- The text of a finite double is read as a double. -/
theorem read_numeral {x : Float} (h : IsFinite x) :
    (numeral x).read = .ok (.double (reread x)) := by
  have hread : ∃ y, (numeral x).read = .ok (.double y) := by
    obtain ⟨lexeme, hnumeral, -, ⟨-, rfl⟩ | ⟨pos, renders⟩⟩ := h.exists_numeral
    · exact ⟨_, (congrArg Numeral.read hnumeral).trans (quantity_zero _)⟩
    · obtain ⟨y, hy⟩ := renders.exists_ofParts? (h.positive pos)
      refine ⟨signed lexeme.negative y, ?_⟩
      rw [hnumeral, Numeral.read, renders.quantity_eq, scaled, hy]
  obtain ⟨y, hy⟩ := hread
  rw [reread, hy]

/-! ## Doubles that are read as they are -/

/-- The number that renders a decimal stands for it. -/
theorem Renders.value_eq {d : Decimal} {lexeme : Lexeme} (h : Renders d lexeme) :
    (lexeme.significand : ℚ) * 10 ^ lexeme.place = d.value := by
  rcases h.same with ⟨hsignificand, hplace⟩ | ⟨-, same⟩
  · rw [hsignificand, hplace, Decimal.value]
  · exact same

/-- A double with a minus sign is read behind its sign. -/
theorem signed_toFloat {x : Binary} (c : x.Canonical) (most : x.exponent ≤ 971) :
    ∀ negative : Bool, signed negative (toFloat .positive x) =
      toFloat (if negative then .negative else .positive) x
  | false => rfl
  | true => by
    change Float.ofModel (.pack (UnpackedFloat.neg (toFloat .positive x).toModel.unpack)) = _
    rw [(denotes_toFloat c most).unpack]
    rcases Nat.eq_zero_or_pos x.significand with zero | pos
    · rw [if_pos rfl, toFloat, unpacked_of_zero zero, unpacked_of_zero zero]
      rfl
    · rw [if_pos rfl, toFloat, unpacked_of_pos pos, unpacked_of_pos pos]
      rfl

/-- The sign that the model computes with is the one that is written. -/
theorem signOf_eq (x : Float) :
    signOf x = if isNegative x then .negative else .positive := by
  rw [signOf, isNegative]
  split
  · next h => rw [h]; rfl
  · next h => rw [beq_eq_false_iff_ne.2 h]; rfl

theorem isNegative_of_signOf {x : Float} {negative : Bool}
    (h : signOf x = if negative then .negative else .positive) : isNegative x = negative := by
  rw [signOf_eq] at h
  cases negative <;> cases hx : isNegative x <;> rw [hx] at h <;> first | rfl | cases h

/-- A finite double is its absolute value behind its sign. -/
theorem IsFinite.signed_ofFloat {x : Float} (h : IsFinite x) :
    signed (isNegative x) (toFloat .positive (.ofFloat x)) = x := by
  rw [signed_toFloat (canonical_ofFloat x) h.most, ← signOf_eq, h.toFloat_ofFloat]

/-- A finite double of few digits that are not scaled far is read as it is. -/
theorem reread_of_isShort {x : Float} (finite : IsFinite x) (short : IsShort x) : reread x = x := by
  obtain ⟨lexeme, hnumeral, negative, form⟩ := finite.exists_numeral
  have absolute : (numeral x).read =
      .ok (.double (signed (isNegative x) (toFloat .positive (.ofFloat x)))) := by
    rcases form with ⟨zero, rfl⟩ | ⟨pos, renders⟩
    · have hzero : (0.0 : Float) = toFloat .positive (.ofFloat x) := by
        rw [toFloat, unpacked_of_zero zero]
        rfl
      rw [hnumeral, ← hzero]
      exact quantity_zero _
    · obtain ⟨_, hshort, small, low, high⟩ := short
      cases hnumeral.symm.trans hshort
      have rounds : (Binary.ofFloat x).Rounds (lexeme.significand * 10 ^ lexeme.place) :=
        renders.value_eq.symm ▸ ((finite.positive pos).shortest .toEven).1
      rw [hnumeral, Numeral.read, renders.quantity_eq, scaled,
        ofParts?_of_short renders.pos small low high (canonical_ofFloat x) rounds, negative]
  rw [reread, absolute]
  exact finite.signed_ofFloat

/-! ## Doubles that are read as they nearly are -/

/-- A double that stands for another: both are finite, they have the same sign, and their absolute
values are close. -/
structure StandsFor (y x : Float) : Prop where
  finite : IsFinite y
  sign : isNegative y = isNegative x
  close : Close (Binary.ofFloat y).value (Binary.ofFloat x).value

/-- A number is close to itself. -/
theorem Close.refl {v : ℚ} (hv : 0 ≤ v) : Close v v := by
  have hle : v ≤ v * (1 + 2 ^ (-49 : ℤ)) := le_mul_of_one_le_right hv (by norm_num)
  have htiny : (0 : ℚ) < 2 ^ (-1073 : ℤ) := by positivity
  constructor <;> linarith

/-- A finite double stands for itself. -/
theorem IsFinite.standsFor {x : Float} (h : IsFinite x) : StandsFor x x :=
  ⟨h, rfl, .refl (Binary.value_nonneg _)⟩

/-- The place of a number that renders the shortest decimal of a double is not very far down. -/
theorem Renders.le_place {x : Binary} {lexeme : Lexeme} (positive : x.Positive)
    (h : Renders (x.shortest .toEven) lexeme) : -500 ≤ lexeme.place := by
  rcases h.same with ⟨-, hplace⟩ | ⟨hplace, -⟩
  · have := (positive.exponent_shortest .toEven).1
    omega
  · omega

/-- A finite double is read as one that stands for it. -/
theorem reread_standsFor {x : Float} (h : IsFinite x) : StandsFor (reread x) x := by
  obtain ⟨lexeme, hnumeral, negative, ⟨-, rfl⟩ | ⟨pos, renders⟩⟩ := h.exists_numeral
  · have short : IsShort x := by
      refine ⟨_, hnumeral, ?_, ?_, ?_⟩
      · change 0 < 2 ^ 53
        norm_num
      · change -22 ≤ (-1 : ℤ)
        norm_num
      · change (-1 : ℤ) ≤ 22
        norm_num
    rw [reread_of_isShort h short]
    exact h.standsFor
  · have positive := h.positive pos
    obtain ⟨y, hy⟩ := renders.exists_ofParts? positive
    have rounds : (Binary.ofFloat x).Rounds (lexeme.significand * 10 ^ lexeme.place) :=
      renders.value_eq.symm ▸ (positive.shortest .toEven).1
    obtain ⟨b, canonical, most, rfl, close⟩ := ofParts?_close renders.pos renders.small
      (renders.le_place positive) (canonical_ofFloat x) rounds hy
    have hreread : reread x = toFloat (if isNegative x then .negative else .positive) b := by
      rw [reread, hnumeral, Numeral.read, renders.quantity_eq, scaled, hy, negative]
      exact signed_toFloat canonical most _
    obtain ⟨finite, hsign, hbinary⟩ :=
      toFloat_spec (if isNegative x then .negative else .positive) canonical most
    rw [hreread]
    exact ⟨finite, isNegative_of_signOf hsign, hbinary.symm ▸ close⟩

end QueryPipeline.Double
