import QueryPipeline.Double.Layout
import QueryPipeline.Proofs.Double.Shortest
import QueryPipeline.Proofs.Json.Quantity

/-!
# The text of a double as a number

The text that `Double.json` writes for a decimal is a number of JSON, with a point or an exponent,
and its digits with their place are the decimal again (`Renders`).
-/

namespace QueryPipeline.Double

open Json Text

/-- A number has the digits and the place of a decimal, or is a whole number with a zero after the
point. -/
structure Renders (d : Decimal) (lexeme : Lexeme) : Prop where
  /-- The digits are one whole number that is small enough to be taken as a whole. -/
  pos : 0 < lexeme.significand
  small : lexeme.significand < 0x10000000000000000
  same : (lexeme.significand = d.digits ∧ lexeme.place = d.exponent) ∨
    (lexeme.place = -1 ∧ (lexeme.significand : ℚ) * 10 ^ lexeme.place = d.value)
  double : lexeme.exponent = none → lexeme.fraction ≠ []
  bound : lexeme.power.natAbs ≤ maxWrittenExponent

/-- A number with the digits and the place of a decimal renders it. -/
theorem renders_of_eq {n : Nat} {e : ℤ} {lexeme : Lexeme} (pos : 0 < n)
    (small : n < 0x10000000000000000) (hsignificand : lexeme.significand = n)
    (hplace : lexeme.place = e) (double : lexeme.exponent = none → lexeme.fraction ≠ [])
    (bound : lexeme.power.natAbs ≤ maxWrittenExponent) : Renders ⟨n, e⟩ lexeme :=
  ⟨hsignificand ▸ pos, hsignificand ▸ small, .inl ⟨hsignificand, hplace⟩, double, bound⟩

/-- Zeros are digits. -/
theorem isDigit_of_mem_replicate {k : Nat} {c : Char} (h : c ∈ List.replicate k '0') :
    c.isDigit = true := by
  rw [List.eq_of_mem_replicate h]
  rfl

/-- The digits of a positive number do not begin with a zero. -/
theorem natural_ne_zero_cons {n : Nat} (pos : 0 < n) (rest : List Char) : natural n ≠ '0' :: rest :=
  fun h => head?_natural_ne_zero pos.ne' (by rw [h]; rfl)

/-- Nor do they with more after them. -/
theorem natural_append_ne_zero_cons {n : Nat} (pos : 0 < n) (more rest : List Char) :
    natural n ++ more ≠ '0' :: rest := by
  intro h
  obtain ⟨c, digits, hc, -⟩ := natural_eq_cons n
  rw [hc] at h
  exact natural_ne_zero_cons pos digits (hc.trans (congrArg (· :: digits) (List.cons.inj h).1))

/-- Zeros after digits. -/
theorem digitsValue_append_zeros (n k : Nat) :
    digitsValue (natural n ++ List.replicate k '0') = n * 10 ^ k := by
  have h := digitsValue_natural n
  unfold digitsValue at h ⊢
  rw [Nat.ofDigitChars_append, h, Nat.ofDigitChars_replicate_zero, Nat.mul_comm]

/-- Zeros in front of digits. -/
theorem digitsValue_zeros_append (n k : Nat) :
    digitsValue (List.replicate k '0' ++ natural n) = n := by
  have h := digitsValue_natural n
  unfold digitsValue at h ⊢
  rw [Nat.ofDigitChars_append, Nat.ofDigitChars_replicate_zero, Nat.mul_zero, h]

section
variable {sign : List Char} {negative : Bool} {n : Nat} {e : ℤ}

/-- A whole number is written with a zero after the point. -/
theorem spells_positionalText_whole (hsign : SpellsSign sign negative) (pos : 0 < n) (he : 0 ≤ e)
    (small : n * 10 ^ e.toNat < 10 ^ 17) :
    ∃ lexeme, SpellsNumber (sign ++ json.positionalText (natural n) e) (.written lexeme) ∧
      lexeme.negative = negative ∧ Renders ⟨n, e⟩ lexeme := by
  obtain ⟨k, rfl⟩ := Int.eq_ofNat_of_zero_le he
  rw [Int.toNat_natCast] at small
  have hwhole : AllDigits (natural n ++ List.replicate k '0') :=
    ⟨fun h => natural_ne_nil n (List.append_eq_nil_iff.1 h).1, fun c hc =>
      (List.mem_append.1 hc).elim isDigit_of_mem_natural isDigit_of_mem_replicate⟩
  have spells := SpellsNumber.mk hsign hwhole
    (fun rest h => absurd h (natural_append_ne_zero_cons pos _ rest))
    (.some allDigits_zero) .none
  have htext : sign ++ json.positionalText (natural n) k =
      sign ++ (natural n ++ List.replicate k '0' ++ ('.' :: ['0'] ++ [])) := by
    simp [Layout.positionalText, json]
  have hsignificand : Lexeme.significand ⟨negative, natural n ++ List.replicate k '0', ['0'], none⟩ =
      n * 10 ^ k * 10 := by
    have zeros : natural n ++ List.replicate k '0' ++ ['0'] =
        natural n ++ List.replicate (k + 1) '0' := by
      rw [List.append_assoc, List.replicate_succ']
    rw [Lexeme.significand, zeros, digitsValue_append_zeros, Nat.pow_succ, Nat.mul_assoc]
  have hpos : 0 < n * 10 ^ k := Nat.mul_pos pos (by positivity)
  refine ⟨_, htext ▸ spells, rfl, ⟨?_, ?_, .inr ⟨rfl, ?_⟩, fun _ => List.cons_ne_nil _ _,
    Nat.zero_le _⟩⟩
  · omega
  · omega
  · have hplace : Lexeme.place ⟨negative, natural n ++ List.replicate k '0', ['0'], none⟩ = -1 := rfl
    rw [hsignificand, hplace, Decimal.value, zpow_neg_one, zpow_natCast]
    push_cast
    exact mul_inv_cancel_right₀ (by norm_num) _

/-- A number with fewer places than digits is written with a point among its digits. -/
theorem spells_positionalText_inside {k : Nat} (hsign : SpellsSign sign negative) (pos : 0 < n)
    (places : 0 < k) (inside : k < (natural n).length) (small : n < 0x10000000000000000) :
    ∃ lexeme, SpellsNumber (sign ++ json.positionalText (natural n) (-(k : ℤ))) (.written lexeme) ∧
      lexeme.negative = negative ∧ Renders ⟨n, -k⟩ lexeme := by
  have hdigits := List.take_append_drop ((natural n).length - k) (natural n)
  have hlength : ((natural n).drop ((natural n).length - k)).length = k := by
    rw [List.length_drop]
    omega
  have hwhole : AllDigits ((natural n).take ((natural n).length - k)) :=
    ⟨fun h => by
      have := congrArg List.length h
      rw [List.length_take, List.length_nil] at this
      omega, fun c hc => isDigit_of_mem_natural (List.mem_of_mem_take hc)⟩
  have hfraction : AllDigits ((natural n).drop ((natural n).length - k)) :=
    ⟨fun h => by
      rw [h, List.length_nil] at hlength
      omega, fun c hc => isDigit_of_mem_natural (List.mem_of_mem_drop hc)⟩
  have spells := SpellsNumber.mk hsign hwhole
    (fun rest h => by
      rw [h, List.cons_append] at hdigits
      exact absurd hdigits.symm (natural_ne_zero_cons pos _))
    (.some hfraction) .none
  have htext : json.positionalText (natural n) (-(k : ℤ)) =
      (natural n).take ((natural n).length - k) ++
        ('.' :: (natural n).drop ((natural n).length - k) ++ []) := by
    rw [Layout.positionalText, if_neg (by omega), Int.neg_neg, Int.toNat_natCast]
    dsimp only
    rw [if_pos inside, List.append_nil, List.append_assoc]
    rfl
  rw [htext]
  refine ⟨_, spells, rfl, renders_of_eq pos small ?_ ?_ (fun _ => hfraction.1) (Nat.zero_le _)⟩
  · rw [Lexeme.significand]
    dsimp only
    rw [hdigits, digitsValue_natural]
  · rw [Lexeme.place]
    dsimp only
    rw [hlength]
    exact Int.zero_sub _

/-- A number with no fewer places than digits is written with a point in front of its digits. -/
theorem spells_positionalText_front {k : Nat} (hsign : SpellsSign sign negative) (pos : 0 < n)
    (places : 0 < k) (front : (natural n).length ≤ k) (small : n < 0x10000000000000000) :
    ∃ lexeme, SpellsNumber (sign ++ json.positionalText (natural n) (-(k : ℤ))) (.written lexeme) ∧
      lexeme.negative = negative ∧ Renders ⟨n, -k⟩ lexeme := by
  have hlength : (List.replicate (k - (natural n).length) '0' ++ natural n).length = k := by
    rw [List.length_append, List.length_replicate]
    omega
  have hfraction : AllDigits (List.replicate (k - (natural n).length) '0' ++ natural n) :=
    ⟨fun h => natural_ne_nil n (List.append_eq_nil_iff.1 h).2, fun c hc =>
      (List.mem_append.1 hc).elim isDigit_of_mem_replicate isDigit_of_mem_natural⟩
  have spells := SpellsNumber.mk hsign allDigits_zero
    (fun rest h => (List.cons.inj h).2.symm) (.some hfraction) .none
  have htext : json.positionalText (natural n) (-(k : ℤ)) =
      ['0'] ++ ('.' :: (List.replicate (k - (natural n).length) '0' ++ natural n) ++ []) := by
    rw [Layout.positionalText, if_neg (by omega), Int.neg_neg, Int.toNat_natCast]
    dsimp only
    rw [if_neg (by omega), List.append_nil, List.append_assoc]
    rfl
  rw [htext]
  refine ⟨_, spells, rfl, renders_of_eq pos small ?_ ?_ (fun _ => hfraction.1) (Nat.zero_le _)⟩
  · have zeros : ['0'] ++ (List.replicate (k - (natural n).length) '0' ++ natural n) =
        List.replicate (k - (natural n).length + 1) '0' ++ natural n := by
      rw [List.replicate_succ]
      rfl
    rw [Lexeme.significand]
    dsimp only
    rw [zeros, digitsValue_zeros_append]
  · rw [Lexeme.place]
    dsimp only
    rw [hlength]
    exact Int.zero_sub _

/-- A number with a fraction is written with a point among its digits or in front of them. -/
theorem spells_positionalText_fraction (hsign : SpellsSign sign negative) (pos : 0 < n) (he : e < 0)
    (small : n < 0x10000000000000000) :
    ∃ lexeme, SpellsNumber (sign ++ json.positionalText (natural n) e) (.written lexeme) ∧
      lexeme.negative = negative ∧ Renders ⟨n, e⟩ lexeme := by
  obtain ⟨k, rfl⟩ : ∃ k : Nat, e = -(k : ℤ) := ⟨(-e).toNat, by omega⟩
  have places : 0 < k := by omega
  rcases Nat.lt_or_ge k (natural n).length with inside | front
  · exact spells_positionalText_inside hsign pos places inside small
  · exact spells_positionalText_front hsign pos places front small

/-- The exponent of a number with its mark and sign. -/
theorem exists_spellsExponent_signedExponent (k : ℤ) :
    ∃ isNegative digits, SpellsExponent (signedExponent k) (some (isNegative, digits)) ∧
      (if isNegative then -(digitsValue digits : ℤ) else digitsValue digits) = k := by
  unfold signedExponent
  cases k with
  | ofNat k =>
    refine ⟨false, natural k, ?_, ?_⟩
    · exact .some (.inl rfl) .positive (allDigits_natural k)
    · simp [digitsValue_natural]
  | negSucc k =>
    refine ⟨true, natural (k + 1), ?_, ?_⟩
    · exact .some (.inl rfl) .negative (allDigits_natural (k + 1))
    · simp [digitsValue_natural, Int.negSucc_eq]

/-- A number far from one is written with an exponent. -/
theorem spells_exponentText (hsign : SpellsSign sign negative) (pos : 0 < n)
    (small : n < 0x10000000000000000)
    (range : (e + (natural n).length - 1).natAbs ≤ maxWrittenExponent) :
    ∃ lexeme, SpellsNumber (sign ++ exponentText (natural n) e) (.written lexeme) ∧
      lexeme.negative = negative ∧ Renders ⟨n, e⟩ lexeme := by
  obtain ⟨isNegative, power, hexponent, hpower⟩ :=
    exists_spellsExponent_signedExponent (e + (natural n).length - 1)
  have digits := allDigits_natural n
  have nonzero := natural_ne_zero_cons pos
  have hvalue := digitsValue_natural n
  have hlexeme : ∀ {whole fraction : List Char}, whole ++ fraction = natural n → whole.length = 1 →
      Renders ⟨n, e⟩ ⟨negative, whole, fraction, some (isNegative, power)⟩ := by
    intro whole fraction hdigits hwhole
    refine renders_of_eq pos small ?_ ?_ (fun h => (Option.some_ne_none _ h).elim) ?_
    · rw [Lexeme.significand]
      dsimp only
      rw [hdigits, hvalue]
    · have hlength := congrArg List.length hdigits
      rw [List.length_append, hwhole] at hlength
      rw [Lexeme.place, Lexeme.power]
      dsimp only
      rw [hpower]
      omega
    · rw [Lexeme.power]
      dsimp only
      rw [hpower]
      exact range
  unfold exponentText
  dsimp only
  cases h : natural n with
  | nil => exact absurd h (natural_ne_nil n)
  | cons d rest =>
    rw [h] at digits nonzero hexponent hlexeme
    have hd : AllDigits [d] :=
      ⟨List.cons_ne_nil _ _, fun c hc => digits.2 c (List.mem_cons.2 (.inl (List.mem_singleton.1 hc)))⟩
    have zero : ∀ more, [d] = '0' :: more → more = [] := fun more h => (List.cons.inj h).2.symm
    cases rest with
    | nil =>
      have spells := SpellsNumber.mk hsign hd zero .none hexponent
      exact ⟨_, spells, rfl, hlexeme rfl rfl⟩
    | cons next rest =>
      have hfraction : AllDigits (next :: rest) :=
        ⟨List.cons_ne_nil _ _, fun c hc => digits.2 c (.tail _ hc)⟩
      have spells := SpellsNumber.mk hsign hd zero (.some hfraction) hexponent
      exact ⟨_, spells, rfl, hlexeme rfl rfl⟩

end

end QueryPipeline.Double
