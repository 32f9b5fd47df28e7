import Mathlib.Algebra.Order.Ring.Nat
import QueryPipeline.Proofs.Json.Token
import QueryPipeline.Proofs.Text.Number
import QueryPipeline.Value.Decimal128

/-!
# Decimal numbers read back

The text of a decimal number is digits, perhaps with a point among or before them and an exponent
after them. Whatever the layout, the reader puts the same digits together and arrives at the same
exponent (`Decimal.finite?_finiteText`), so what is written for an encoding reads back as the
encoding that the format gives the number (`Decimal128.ofText?_text`): a coefficient that is too
great has become zero, and what is no number has lost its sign and all else that it carried.
-/

namespace QueryPipeline

open Json Text

namespace Decimal

/-! ## The parts of a number -/

/-- Only digits. -/
def OnlyDigits (text : List Char) : Prop :=
  ∀ c ∈ text, c.isDigit = true

/-- A digit is no mark of a number, and no letter that has another case. -/
theorem marks_of_isDigit {c : Char} (h : c.isDigit = true) :
    c ≠ 'e' ∧ c ≠ '.' ∧ c.toLower = c := by
  have all : ∀ n < 58, (Char.ofNat n).isDigit = true →
      Char.ofNat n ≠ 'e' ∧ Char.ofNat n ≠ '.' ∧ (Char.ofNat n).toLower = Char.ofNat n := by
    decide
  have at_c := all c.toNat (toNat_of_isDigit h).2
  rw [Char.ofNat_toNat] at at_c
  exact at_c h

/-- A number is read from the digits before the point, the digits after it and the exponent. -/
theorem finite?_of_parts {whole point fraction mark : List Char} {power : Int}
    (hwhole : OnlyDigits whole) (hfraction : OnlyDigits fraction)
    (hpoint : point = '.' :: fraction ∨ point = [] ∧ fraction = [])
    (hmark : mark = [] ∧ power = 0 ∨ ∃ text, mark = 'e' :: text ∧ exponent? text = some power)
    (places : fraction.length < 0x8000)
    (low : -0x8000 ≤ power - fraction.length) (high : power - fraction.length < 0x8000) :
    finite? (whole ++ point ++ mark) =
      (fit? (stripZeros (whole ++ fraction)) (power - fraction.length)).map fun fitted =>
        .finite fitted.1 fitted.2 := by
  have mantissa : ∀ c ∈ whole ++ point, (c != 'e') = true := by
    intro c hc
    rw [bne_iff_ne]
    rcases List.mem_append.1 hc with hc | hc
    · exact (marks_of_isDigit (hwhole c hc)).1
    · rcases hpoint with rfl | ⟨rfl, -⟩
      · rcases List.mem_cons.1 hc with rfl | hc
        · decide
        · exact (marks_of_isDigit (hfraction c hc)).1
      · cases hc
  have stop : ∀ c ∈ mark.head?, (c != 'e') = false := by
    rcases hmark with ⟨rfl, -⟩ | ⟨text, rfl, -⟩
    · exact fun c hc => by cases hc
    · rintro c ⟨⟩
      rfl
  obtain ⟨htake, hdrop⟩ := takeWhile_append_of_stop mantissa stop
  have digits : ∀ c ∈ whole, (c != '.') = true := fun c hc =>
    bne_iff_ne.2 (marks_of_isDigit (hwhole c hc)).2.1
  have atPoint : ∀ c ∈ point.head?, (c != '.') = false := by
    rcases hpoint with rfl | ⟨rfl, -⟩
    · rintro c ⟨⟩
      rfl
    · exact fun c hc => by cases hc
  obtain ⟨hbefore, hafter⟩ := takeWhile_append_of_stop digits atPoint
  have hdropped : point.drop 1 = fraction := by
    rcases hpoint with rfl | ⟨rfl, rfl⟩
    · rfl
    · rfl
  have hplaces : exponentWord? (fraction.length : Int) = some (fraction.length : Int) := by
    rw [exponentWord?, if_pos (by omega)]
  have hword : exponentWord? (power - fraction.length) = some (power - fraction.length) := by
    rw [exponentWord?, if_pos ⟨low, high⟩]
  unfold finite?
  simp only [htake, hdrop, hbefore, hafter, hdropped, hplaces, Option.bind_eq_bind,
    Option.bind_some, Option.pure_def, Option.map_eq_bind]
  rcases hmark with ⟨rfl, rfl⟩ | ⟨text, rfl, h⟩
  · simp only [hword, Option.bind_some]
    rfl
  · simp only [h, hword, Option.bind_some]
    rfl

/-- Digits of a number, with zeros in front of them, are stripped to the digits. -/
theorem stripZeros_replicate_natural (zeros coefficient : Nat) :
    stripZeros (List.replicate zeros '0' ++ natural coefficient) = natural coefficient := by
  have front : ∀ c ∈ List.replicate zeros '0', (c == '0') = true := by
    intro c hc
    rw [(List.mem_replicate.1 hc).2]
    rfl
  rw [stripZeros, List.dropWhile_append_of_pos front]
  by_cases hzero : coefficient = 0
  · subst hzero
    rfl
  · obtain ⟨c, rest, hc, -⟩ := natural_eq_cons coefficient
    have hne : c ≠ '0' := by
      rintro rfl
      exact head?_natural_ne_zero hzero (by rw [hc]; rfl)
    rw [hc, List.dropWhile_cons_of_neg (by simp [hne])]

/-- Digits are the value that they have. -/
theorem coefficient?_natural (n : Nat) : coefficient? (natural n) = some n := by
  obtain ⟨c, rest, hc, hdigit⟩ := natural_eq_cons n
  have hplus : c ≠ '+' := (isDigit_ne_sign hdigit).1
  have value := natural?_natural n
  rw [hc] at value ⊢
  simpa [coefficient?, hplus] using value

/-- A coefficient of the format has at most as many digits as the format allows. -/
theorem length_natural_le {coefficient : Nat} (small : coefficient < 10 ^ maxDigits) :
    (natural coefficient).length ≤ maxDigits :=
  (Nat.length_toDigits_le_iff (by decide) (by decide)).2 small

/-- Digits and an exponent within the limits of the format are kept. -/
theorem fit?_natural {coefficient : Nat} {exponent : Int} (small : coefficient < 10 ^ maxDigits)
    (low : minExponent ≤ exponent) (high : exponent ≤ maxExponent) :
    fit? (natural coefficient) exponent = some (coefficient, exponent) := by
  have short : ¬ maxDigits < (natural coefficient).length := by
    have := length_natural_le small
    omega
  have word : exponentWord? exponent = some exponent := by
    rw [exponentWord?, if_pos]
    unfold minExponent at low
    unfold maxExponent at high
    omega
  have notLow : ¬ exponent < minExponent := by omega
  have notHigh : ¬ maxExponent < exponent := by omega
  simp [fit?, short, word, notLow, notHigh, coefficient?_natural]

/-! ## The text of a number -/

/-- Digits are the same in lower case. -/
theorem OnlyDigits.map_toLower {text : List Char} (h : OnlyDigits text) :
    text.map Char.toLower = text := by
  rw [List.map_congr_left fun c hc => (marks_of_isDigit (h c hc)).2.2, List.map_id']

/-- The digits of a number are digits. -/
theorem onlyDigits_natural (n : Nat) : OnlyDigits (natural n) :=
  fun _ => isDigit_of_mem_natural

/-- The digits of a number behind zeros are digits. -/
theorem onlyDigits_replicate_natural (zeros n : Nat) :
    OnlyDigits (List.replicate zeros '0' ++ natural n) := by
  intro c hc
  rcases List.mem_append.1 hc with hc | hc
  · rw [(List.mem_replicate.1 hc).2]
    rfl
  · exact isDigit_of_mem_natural hc

/-- Some of the digits of a number are digits. -/
theorem OnlyDigits.of_subset {text part : List Char} (h : OnlyDigits text) (hpart : part ⊆ text) :
    OnlyDigits part :=
  fun c hc => h c (hpart hc)

/-- The exponent of a number as written, after its mark. -/
def exponentText (exponent : Int) : List Char :=
  (if 0 ≤ exponent then ['+'] else []) ++ integer exponent

/-- An exponent that is written is read as it is. -/
theorem exponent?_exponentText {exponent : Int} (low : -0x8000 ≤ exponent)
    (high : exponent < 0x8000) : exponent? (exponentText exponent) = some exponent := by
  have value : integer? (exponentText exponent) = some exponent := by
    unfold exponentText
    cases exponent with
    | ofNat n =>
      simp [integer, integer?, natural?_natural]
    | negSucc n => simpa using integer?_integer (.negSucc n)
  rw [exponent?, value, Option.bind_some, exponentWord?, if_pos ⟨low, high⟩]

/-- An exponent that is written is the same in lower case. -/
theorem map_toLower_exponentText (exponent : Int) :
    (exponentText exponent).map Char.toLower = exponentText exponent := by
  have digits (n : Nat) := (onlyDigits_natural n).map_toLower
  have minus : Char.toLower '-' = '-' := by decide
  have plus : Char.toLower '+' = '+' := by decide
  unfold exponentText
  cases exponent with
  | ofNat n => simp [integer, digits, plus]
  | negSucc n => simp [integer, digits, minus]

/-- One layout of a number reads back: the digits around the point are the digits of the number
behind zeros, and the exponent that is written accounts for the point. -/
theorem finite?_of_layout {coefficient : Nat} {exponent power : Int}
    {whole point mark : List Char} (small : coefficient < 10 ^ maxDigits)
    (low : minExponent ≤ exponent) (high : exponent ≤ maxExponent) (zeros : Nat)
    (fraction : List Char)
    (digits : whole ++ fraction = List.replicate zeros '0' ++ natural coefficient)
    (hpoint : point = '.' :: fraction ∨ point = [] ∧ fraction = [])
    (hmark : mark = [] ∧ power = 0 ∨ ∃ text, mark = 'e' :: text ∧ exponent? text = some power)
    (places : power - fraction.length = exponent) (short : fraction.length < 0x8000) :
    finite? (whole ++ point ++ mark) = some (.finite coefficient exponent) := by
  have only : OnlyDigits (whole ++ fraction) := by
    rw [digits]
    exact onlyDigits_replicate_natural zeros coefficient
  have hwhole : OnlyDigits whole := only.of_subset (List.subset_append_left _ _)
  have hfraction : OnlyDigits fraction := only.of_subset (List.subset_append_right _ _)
  unfold minExponent at low
  unfold maxExponent at high
  rw [finite?_of_parts hwhole hfraction hpoint hmark short (by omega) (by omega), digits,
    stripZeros_replicate_natural, places, fit?_natural small low high]
  rfl

/-- The exponential layout: one digit before the point, the others after it. -/
theorem finiteText_of_exponential {coefficient : Nat} {exponent : Int} {d : Char}
    {rest : List Char} (hdigits : natural coefficient = d :: rest)
    (h : 0 < exponent ∨ exponent + (natural coefficient).length - 1 < -6) :
    finiteText coefficient exponent = [d] ++ (if rest = [] then [] else '.' :: rest) ++
      'E' :: exponentText (exponent + (natural coefficient).length - 1) := by
  unfold finiteText exponentText
  dsimp only
  rw [if_pos h]
  generalize exponent + (natural coefficient).length - 1 = leading
  rw [hdigits]
  cases rest with
  | nil =>
    by_cases hleading : 0 ≤ leading
    · simp [hleading]
    · simp [hleading]
  | cons second rest =>
    by_cases hleading : 0 ≤ leading
    · simp [hleading]
    · simp [hleading]

/-- The positional layout: the point among the digits, or before them, or left out. -/
theorem finiteText_of_positional {coefficient : Nat} {exponent : Int}
    (h : ¬ (0 < exponent ∨ exponent + (natural coefficient).length - 1 < -6)) :
    ∃ whole point fraction zeros, finiteText coefficient exponent = whole ++ point ++ [] ∧
      whole ++ fraction = List.replicate zeros '0' ++ natural coefficient ∧
      (point = '.' :: fraction ∨ point = [] ∧ fraction = []) ∧
      fraction.length = (-exponent).toNat ∧ whole ≠ [] := by
  have leading_eq : ∀ zeros, '0' :: (List.replicate zeros '0' ++ natural coefficient) =
      List.replicate (zeros + 1) '0' ++ natural coefficient := fun zeros => rfl
  unfold finiteText
  dsimp only
  rw [if_neg h]
  by_cases hnone : (-exponent).toNat = 0
  · exact ⟨natural coefficient, [], [], 0, by simp [hnone], by simp, .inr ⟨rfl, rfl⟩,
      by simp [hnone], natural_ne_nil coefficient⟩
  · rw [if_neg hnone]
    split
    · next among =>
      refine ⟨(natural coefficient).take ((natural coefficient).length - (-exponent).toNat), _,
        (natural coefficient).drop ((natural coefficient).length - (-exponent).toNat), 0, ?_,
        List.take_append_drop _ _, .inl rfl, ?_, ?_⟩
      · simp
      · rw [List.length_drop]
        omega
      · rw [← List.length_pos_iff, List.length_take]
        omega
    · next before =>
      refine ⟨['0'], _, List.replicate ((-exponent).toNat - (natural coefficient).length) '0' ++
        natural coefficient, _, ?_, leading_eq _, .inl rfl, ?_, List.cons_ne_nil _ _⟩
      · simp
      · rw [List.length_append, List.length_replicate]
        omega

/-- A finite number that is written reads back. -/
theorem finite?_finiteText {coefficient : Nat} {exponent : Int}
    (small : coefficient < 10 ^ maxDigits) (low : minExponent ≤ exponent)
    (high : exponent ≤ maxExponent) :
    finite? ((finiteText coefficient exponent).map Char.toLower) =
      some (.finite coefficient exponent) := by
  have length : (natural coefficient).length ≤ 34 := length_natural_le small
  have low' : -6176 ≤ exponent := low
  have high' : exponent ≤ 6111 := high
  have point : Char.toLower '.' = '.' := by decide
  have mark : Char.toLower 'E' = 'e' := by decide
  by_cases exponential : 0 < exponent ∨ exponent + (natural coefficient).length - 1 < -6
  · obtain ⟨d, rest, hd, hdigit⟩ := natural_eq_cons coefficient
    have count : (natural coefficient).length = rest.length + 1 := by rw [hd]; rfl
    have hrest : OnlyDigits rest :=
      (onlyDigits_natural coefficient).of_subset (by rw [hd]; exact List.subset_cons_self _ _)
    have lower : (finiteText coefficient exponent).map Char.toLower =
        [d] ++ (if rest = [] then [] else '.' :: rest) ++
          'e' :: exponentText (exponent + (natural coefficient).length - 1) := by
      rw [finiteText_of_exponential hd exponential]
      split
      · simp [mark, map_toLower_exponentText, (marks_of_isDigit hdigit).2.2]
      · simp [mark, point, map_toLower_exponentText, (marks_of_isDigit hdigit).2.2,
          hrest.map_toLower]
    rw [lower]
    refine finite?_of_layout small low high 0 rest ?_ ?_
      (.inr ⟨_, rfl, exponent?_exponentText (by omega) (by omega)⟩) (by omega) (by omega)
    · simp [hd]
    · by_cases hnone : rest = []
      · simp [hnone]
      · simp [hnone]
  · obtain ⟨whole, pointText, fraction, zeros, htext, digits, hpoint, places, -⟩ :=
      finiteText_of_positional exponential
    have only : OnlyDigits (whole ++ fraction) := by
      rw [digits]
      exact onlyDigits_replicate_natural zeros coefficient
    have lower : (finiteText coefficient exponent).map Char.toLower =
        whole ++ pointText ++ [] := by
      have hwhole := (only.of_subset (List.subset_append_left _ _)).map_toLower
      have hfraction := (only.of_subset (List.subset_append_right _ _)).map_toLower
      rw [htext]
      rcases hpoint with rfl | ⟨rfl, -⟩
      · simp [hwhole, hfraction, point]
      · simp [hwhole]
    rw [lower]
    exact finite?_of_layout small low high zeros fraction digits hpoint (.inl ⟨rfl, rfl⟩)
      (by omega) (by omega)

/-- The text of a finite number begins with a digit. -/
theorem exists_finiteText_eq_cons (coefficient : Nat) (exponent : Int) :
    ∃ c rest, finiteText coefficient exponent = c :: rest ∧ c.isDigit = true := by
  by_cases exponential : 0 < exponent ∨ exponent + (natural coefficient).length - 1 < -6
  · obtain ⟨d, rest, hd, hdigit⟩ := natural_eq_cons coefficient
    exact ⟨d, _, finiteText_of_exponential hd exponential, hdigit⟩
  · obtain ⟨whole, point, fraction, zeros, htext, digits, -, -, hwhole⟩ :=
      finiteText_of_positional exponential
    obtain ⟨c, rest, rfl⟩ := List.exists_cons_of_ne_nil hwhole
    refine ⟨c, _, htext, onlyDigits_replicate_natural zeros coefficient c ?_⟩
    rw [← digits]
    exact .head _

/-! ## Reading a number back -/

/-- A text that begins with a digit is no name of a special value. -/
theorem magnitude?_of_digit {c : Char} {rest : List Char} (h : c.isDigit = true) :
    magnitude? (c :: rest) = finite? ((c :: rest).map Char.toLower) := by
  have hne : ∀ {name : String} {letter : Char} {more : List Char}, name.toList = letter :: more →
      letter.isDigit = false → String.ofList ((c :: rest).map Char.toLower) ≠ name := by
    rintro _ letter more head other rfl
    rw [String.toList_ofList, List.map_cons, (marks_of_isDigit h).2.2] at head
    rw [← (List.cons.inj head).1, h] at other
    cases other
  unfold magnitude?
  dsimp only
  split
  · next same => exact absurd same (hne rfl rfl)
  · next same => exact absurd same (hne rfl rfl)
  · next same => exact absurd same (hne rfl rfl)
  · next same => exact absurd same (hne rfl rfl)
  · rfl

/-- A number within the limits of the format. -/
def Fits (d : Decimal) : Prop :=
  ∀ coefficient exponent, d.magnitude = .finite coefficient exponent →
    coefficient < 10 ^ maxDigits ∧ minExponent ≤ exponent ∧ exponent ≤ maxExponent

/-- The limits of the format, with its numbers written out. -/
theorem fits_iff {d : Decimal} : d.Fits ↔
    ∀ coefficient exponent, d.magnitude = .finite coefficient exponent →
      coefficient < 10 ^ 34 ∧ -6176 ≤ exponent ∧ exponent ≤ 6111 :=
  Iff.rfl

/-- What the text of a number shows of it: what is no number has no sign. -/
def shown (d : Decimal) : Decimal :=
  match d.magnitude with
  | .notANumber => ⟨false, .notANumber⟩
  | magnitude => ⟨d.negative, magnitude⟩

/-- What the text of a number shows is read from it. -/
theorem ofText?_text {d : Decimal} (fits : d.Fits) : ofText? d.text = some d.shown := by
  obtain ⟨negative, magnitude⟩ := d
  cases magnitude with
  | finite coefficient exponent =>
    obtain ⟨small, low, high⟩ := fits _ _ rfl
    obtain ⟨c, rest, htext, hdigit⟩ := exists_finiteText_eq_cons coefficient exponent
    have value : magnitude? (finiteText coefficient exponent) =
        some (.finite coefficient exponent) := by
      rw [htext, magnitude?_of_digit hdigit, ← htext, finite?_finiteText small low high]
    obtain ⟨hplus, hminus⟩ := isDigit_ne_sign hdigit
    cases negative with
    | true =>
      change (magnitude? (finiteText coefficient exponent)).map (Decimal.mk true) = _
      rw [value]
      rfl
    | false =>
      have unsigned : ofText? (c :: rest) = (magnitude? (c :: rest)).map (Decimal.mk false) := by
        simp [ofText?, hplus, hminus]
      change ofText? (finiteText coefficient exponent) = _
      rw [htext, unsigned, ← htext, value]
      rfl
  | infinity =>
    have value : magnitude? ['I', 'n', 'f', 'i', 'n', 'i', 't', 'y'] = some .infinity := by
      simp [magnitude?]
    have letters : Magnitude.infinity.text = ['I', 'n', 'f', 'i', 'n', 'i', 't', 'y'] := rfl
    cases negative with
    | true =>
      change (magnitude? Magnitude.infinity.text).map (Decimal.mk true) = _
      rw [letters, value]
      rfl
    | false =>
      change (magnitude? Magnitude.infinity.text).map (Decimal.mk false) = _
      rw [letters, value]
      rfl
  | notANumber =>
    have value : magnitude? ['N', 'a', 'N'] = some .notANumber := by
      simp [magnitude?]
    have letters : Magnitude.notANumber.text = ['N', 'a', 'N'] := rfl
    have unsigned : text ⟨negative, .notANumber⟩ = Magnitude.notANumber.text := by
      cases negative with
      | true | false => rfl
    rw [unsigned]
    change (magnitude? Magnitude.notANumber.text).map (Decimal.mk false) = _
    rw [letters, value]
    rfl

end Decimal

namespace Decimal128

/-- The sign of an encoding is its highest bit. -/
theorem negative_toDecimal (d : Decimal128) :
    d.toDecimal.negative = decide (numberOf d.bytes / 0x80000000000000000000000000000000 = 1) :=
  rfl

/-- The magnitude of an encoding, with the numbers of the format written out. -/
theorem magnitude_toDecimal {d : Decimal128} {body : Nat}
    (h : numberOf d.bytes % 0x80000000000000000000000000000000 = body) :
    d.toDecimal.magnitude =
      if body / 0x4000000000000000000000000000000 = 31 then .notANumber
      else if body / 0x4000000000000000000000000000000 = 30 then .infinity
      else if body / 0x20000000000000000000000000000000 = 3 then
        .finite 0 ((body / 0x8000000000000000000000000000 % 0x4000 : Nat) + -6176)
      else
        .finite (if body % 0x20000000000000000000000000000 < 10 ^ 34 then
          body % 0x20000000000000000000000000000 else 0)
          ((body / 0x20000000000000000000000000000 : Nat) + -6176) := by
  subst h
  rfl

/-- The number of an encoding is within the limits of the format. -/
theorem fits_toDecimal (d : Decimal128) : d.toDecimal.Fits := by
  rw [Decimal.fits_iff]
  intro coefficient exponent h
  obtain ⟨body, hbody⟩ : ∃ body, numberOf d.bytes % 0x80000000000000000000000000000000 = body :=
    ⟨_, rfl⟩
  have below : body < 0x80000000000000000000000000000000 := by omega
  rw [magnitude_toDecimal hbody] at h
  split at h
  · cases h
  · next notNaN =>
    split at h
    · cases h
    · next notInfinite =>
      split at h
      · next large =>
        cases h
        refine ⟨by decide, ?_, ?_⟩
        · omega
        · omega
      · next small =>
        cases h
        refine ⟨?_, ?_, ?_⟩
        · split
          · next bound => exact bound
          · decide
        · omega
        · omega

/-- The encoding that is read from the text of an encoding. -/
def canonical (d : Decimal128) : Decimal128 :=
  ofDecimal d.toDecimal.shown

/-- The text of an encoding reads back as the encoding that the format gives its number. -/
theorem ofText?_text (d : Decimal128) : ofText? d.text = some d.canonical := by
  rw [ofText?, text, String.toList_ofList, Decimal.ofText?_text d.fits_toDecimal, Option.map_some,
    canonical]

/-! ## The number of an encoding -/

/-- The bytes of a number stand for what of it they hold. -/
theorem numberOf_bytesOf (count n : Nat) : numberOf (bytesOf count n) = n % 256 ^ count := by
  induction count generalizing n with
  | zero => rw [bytesOf, numberOf, Nat.pow_zero, Nat.mod_one]
  | succ count ih =>
    have low : (UInt8.ofNat (n % 256)).toNat = n % 256 := by simp
    rw [bytesOf, numberOf, ih, low, Nat.pow_succ', Nat.mod_mul]

/-- What is encoded of a magnitude, with the numbers of the format written out. -/
theorem payload_eq (magnitude : Decimal.Magnitude) :
    payload magnitude = match magnitude with
      | .finite coefficient exponent =>
        (exponent + 6176).toNat * 0x20000000000000000000000000000 + coefficient
      | .infinity => 0x78000000000000000000000000000000
      | .notANumber => 0x7c000000000000000000000000000000 := by
  cases magnitude with
  | finite | infinity | notANumber => rfl

/-- What is encoded besides the sign leaves the sign's bit alone. -/
theorem payload_lt {d : Decimal} (fits : d.Fits) :
    payload d.magnitude < 0x80000000000000000000000000000000 := by
  rw [payload_eq]
  split
  · next h =>
    obtain ⟨small, low, high⟩ := Decimal.fits_iff.1 fits _ _ h
    omega
  · decide
  · decide

/-- The magnitude that is encoded is the one of the encoding. -/
theorem magnitude_toDecimal_of_payload {d : Decimal} (fits : d.Fits) {code : Decimal128}
    (h : numberOf code.bytes % 0x80000000000000000000000000000000 = payload d.magnitude) :
    code.toDecimal.magnitude = d.magnitude := by
  rw [magnitude_toDecimal h, payload_eq]
  obtain ⟨negative, magnitude⟩ := d
  cases magnitude with
  | finite coefficient exponent =>
    obtain ⟨small, low, high⟩ := Decimal.fits_iff.1 fits _ _ rfl
    dsimp only
    have hcoefficient : ((exponent + 6176).toNat * 0x20000000000000000000000000000 + coefficient) %
        0x20000000000000000000000000000 = coefficient := by omega
    have hexponent : ((((exponent + 6176).toNat * 0x20000000000000000000000000000 +
        coefficient) / 0x20000000000000000000000000000 : Nat) : Int) + -6176 = exponent := by omega
    rw [if_neg (by omega), if_neg (by omega), if_neg (by omega), hcoefficient, hexponent,
      if_pos small]
  | infinity =>
    dsimp only
    rw [if_neg (by omega), if_pos (by omega)]
  | notANumber =>
    dsimp only
    rw [if_pos (by omega)]

/-- The number of an encoding is the one that is encoded. -/
theorem toDecimal_ofDecimal {d : Decimal} (fits : d.Fits) : (ofDecimal d).toDecimal = d := by
  have bound := payload_lt fits
  have number : numberOf (ofDecimal d).bytes =
      (if d.negative then 0x80000000000000000000000000000000 else 0) + payload d.magnitude := by
    refine (numberOf_bytesOf _ _).trans (Nat.mod_eq_of_lt ?_)
    change (if d.negative then 0x80000000000000000000000000000000 else 0) + payload d.magnitude <
      0x100000000000000000000000000000000
    split <;> omega
  have sign : (ofDecimal d).toDecimal.negative = d.negative := by
    rw [negative_toDecimal, number]
    cases d.negative with
    | true => exact decide_eq_true (by rw [if_pos rfl]; omega)
    | false => exact decide_eq_false (by rw [if_neg Bool.false_ne_true]; omega)
  have magnitude : (ofDecimal d).toDecimal.magnitude = d.magnitude := by
    refine magnitude_toDecimal_of_payload fits ?_
    rw [number]
    split <;> omega
  exact congrArg₂ Decimal.mk sign magnitude

/-- What the text of an encoding shows is the number of the encoding that is read from it. -/
theorem toDecimal_canonical (d : Decimal128) : d.canonical.toDecimal = d.toDecimal.shown := by
  refine toDecimal_ofDecimal fun coefficient exponent h => ?_
  refine d.fits_toDecimal coefficient exponent ?_
  unfold Decimal.shown at h
  split at h
  · cases h
  · exact h

end Decimal128

end QueryPipeline
