import QueryPipeline.Proofs.Json.Token
import QueryPipeline.Text.Blank
import QueryPipeline.Text.Digits

/-!
# Whole numbers in texts

What a text of a whole number looks like, said without regard to how it is read: `SignedDigits` is
an optional sign followed by one or more digits, and `Trimmed` relates a text to what is left of it
without the blanks at both ends. The readers agree with them (`integer?_eq_some_iff`,
`int64?_eq_some_iff`, `int64?_trimBlanks_eq_some_iff`). A number has one text only in which no zero
stands in front (`natural_digitsValue`).
-/

namespace QueryPipeline.Text

open Json (AllDigits)

/-- An optional sign followed by one or more digits, with the number that it denotes. -/
inductive SignedDigits : List Char → Int → Prop
  | unsigned {digits : List Char} (h : AllDigits digits) :
      SignedDigits digits (digitsValue digits)
  | plus {digits : List Char} (h : AllDigits digits) :
      SignedDigits ('+' :: digits) (digitsValue digits)
  | minus {digits : List Char} (h : AllDigits digits) :
      SignedDigits ('-' :: digits) (-digitsValue digits)

/-- A text without the blanks in front of it and after it. -/
inductive Trimmed : List Char → List Char → Prop
  | mk {before core after : List Char} (hbefore : ∀ c ∈ before, isBlankChar c = true)
      (hhead : ∀ c ∈ core.head?, isBlankChar c = false)
      (hlast : ∀ c ∈ core.getLast?, isBlankChar c = false)
      (hafter : ∀ c ∈ after, isBlankChar c = true) : Trimmed (before ++ (core ++ after)) core

/-! ## Digits -/

/-- Digits are read as a natural number, and nothing else is. -/
theorem natural?_eq_some_iff {text : List Char} {n : Nat} :
    natural? text = some n ↔ AllDigits text ∧ n = digitsValue text := by
  have hall : text.all Char.isDigit = true ↔ ∀ c ∈ text, c.isDigit = true := List.all_eq_true
  unfold natural? AllDigits
  split
  next h =>
    rw [Option.some.injEq, and_iff_right ⟨h.1, hall.1 h.2⟩, eq_comm]
  next h =>
    simp only [← hall, h, false_and, reduceCtorEq]

/-- The digits stand one after another among the characters. -/
theorem toNat_of_isDigit {c : Char} (h : c.isDigit = true) :
    '0'.toNat ≤ c.toNat ∧ c.toNat < '0'.toNat + 10 :=
  (Char.isDigit_iff_toNat.1 h).imp_right Nat.lt_succ_of_le

/-- A digit is none of the signs. -/
theorem isDigit_ne_sign {c : Char} (h : c.isDigit = true) : c ≠ '+' ∧ c ≠ '-' := by
  constructor
  · rintro rfl
    cases h
  · rintro rfl
    cases h

/-- A sign in front settles how a whole number is read, and so does its absence. -/
theorem integer?_eq_some_iff {text : List Char} {n : Int} :
    integer? text = some n ↔ SignedDigits text n := by
  constructor
  · intro h
    unfold integer? at h
    split at h
    all_goals
      obtain ⟨k, hk, rfl⟩ := Option.map_eq_some_iff.1 h
      obtain ⟨digits, rfl⟩ := natural?_eq_some_iff.1 hk
    · exact .plus digits
    · exact .minus digits
    · exact .unsigned digits
  · intro h
    cases h with
    | plus digits | minus digits => simp [integer?, natural?_eq_some_iff.2 ⟨digits, rfl⟩]
    | unsigned digits =>
      have hread := natural?_eq_some_iff.2 ⟨digits, rfl⟩
      obtain ⟨c, rest, rfl⟩ := List.exists_cons_of_ne_nil digits.1
      obtain ⟨hplus, hminus⟩ := isDigit_ne_sign (digits.2 c (.head _))
      simp [integer?, hplus, hminus, hread]

/-- A number of 64 bits is read from the digits of one, and a greater or lesser number is not. -/
theorem int64?_eq_some_iff {text : List Char} {k : Int64} :
    int64? text = some k ↔ SignedDigits text k.toInt := by
  have hle := k.le_toInt
  have hlt := k.toInt_lt
  rw [int64?, Option.bind_eq_some_iff]
  constructor
  · rintro ⟨n, hn, h⟩
    split at h
    next range =>
      cases h
      rw [Int64.toInt_ofInt_of_le range.1 range.2]
      exact integer?_eq_some_iff.1 hn
    next => cases h
  · intro h
    exact ⟨k.toInt, integer?_eq_some_iff.2 h, by rw [if_pos ⟨hle, hlt⟩, Int64.ofInt_toInt]⟩

/-! ## Blanks -/

/-- Blanks at both ends are dropped, and nothing else is. -/
theorem trimBlanks_of_trimmed {text core : List Char} (h : Trimmed text core) :
    trimBlanks text = core := by
  obtain @⟨before, _, after, hbefore, hhead, hlast, hafter⟩ := h
  have hback : (after.reverse ++ core.reverse).dropWhile isBlankChar = core.reverse :=
    (Json.takeWhile_append_of_stop (by simpa using hafter) (by simpa using hlast)).2
  unfold trimBlanks
  cases core with
  | nil =>
    have hall : ∀ c ∈ before ++ after, isBlankChar c = true := by
      intro c hc
      exact (List.mem_append.1 hc).elim (hbefore c) (hafter c)
    rw [List.nil_append, List.dropWhile_eq_nil_iff.2 hall]
    rfl
  | cons c core =>
    have hstop : ∀ d ∈ (c :: core ++ after).head?, isBlankChar d = false := hhead
    rw [(Json.takeWhile_append_of_stop hbefore hstop).2, List.reverse_append, hback, List.reverse_reverse]

/-- Where characters are dropped, the first one that stays is of another kind. -/
theorem stop_of_mem_head?_dropWhile {p : Char → Bool} {text : List Char} {c : Char}
    (h : c ∈ (text.dropWhile p).head?) : p c = false := by
  have stop := List.head?_dropWhile_not p text
  rw [Option.mem_def.1 h] at stop
  exact stop

/-- What is left of a text without its blanks is trimmed. -/
theorem trimmed_trimBlanks (text : List Char) : Trimmed text (trimBlanks text) := by
  obtain ⟨front, hfront⟩ : ∃ front, front = text.dropWhile isBlankChar := ⟨_, rfl⟩
  obtain ⟨back, hback⟩ : ∃ back, back = front.reverse.takeWhile isBlankChar := ⟨_, rfl⟩
  have hcore : trimBlanks text = (front.reverse.dropWhile isBlankChar).reverse := by
    rw [trimBlanks, hfront]
  have hsplit : front = trimBlanks text ++ back.reverse := by
    rw [hcore, hback, ← List.reverse_append, List.takeWhile_append_dropWhile, List.reverse_reverse]
  have htext : text = text.takeWhile isBlankChar ++ (trimBlanks text ++ back.reverse) := by
    rw [← hsplit, hfront, List.takeWhile_append_dropWhile]
  conv => lhs; rw [htext]
  refine .mk (fun c => List.mem_takeWhile_imp) ?_ ?_ ?_
  · intro c hc
    have hhead : c ∈ front.head? := by
      rw [hsplit, List.head?_append, Option.mem_def.1 hc]
      rfl
    rw [hfront] at hhead
    exact stop_of_mem_head?_dropWhile hhead
  · intro c hc
    rw [hcore, List.getLast?_reverse] at hc
    exact stop_of_mem_head?_dropWhile hc
  · intro c hc
    rw [hback, List.mem_reverse] at hc
    exact List.mem_takeWhile_imp hc

/-- A text of a number of 64 bits between blanks is read as this number. -/
theorem int64?_trimBlanks_eq_some_iff {text : List Char} {k : Int64} :
    int64? (trimBlanks text) = some k ↔ ∃ core, Trimmed text core ∧ SignedDigits core k.toInt := by
  rw [int64?_eq_some_iff]
  constructor
  · intro h
    exact ⟨_, trimmed_trimBlanks text, h⟩
  · rintro ⟨core, htrim, h⟩
    rw [trimBlanks_of_trimmed htrim]
    exact h

/-- A digit is no blank. -/
theorem isBlankChar_of_isDigit {c : Char} (h : c.isDigit = true) : isBlankChar c = false := by
  have code : 48 ≤ c.toNat ∧ c.toNat < 58 := toNat_of_isDigit h
  simp [isBlankChar, blankRanges]
  omega

/-- Nothing is dropped of a whole number. -/
theorem SignedDigits.trimmed {text : List Char} {n : Int} (h : SignedDigits text n) :
    Trimmed text text := by
  have hall : ∀ c ∈ text, isBlankChar c = false := by
    cases h with
    | unsigned digits => exact fun c hc => isBlankChar_of_isDigit (digits.2 c hc)
    | plus digits | minus digits =>
      exact List.forall_mem_cons.2 ⟨by decide, fun c hc => isBlankChar_of_isDigit (digits.2 c hc)⟩
  have whole : Trimmed ([] ++ (text ++ [])) text :=
    .mk (by simp) (fun c hc => hall c (List.mem_of_mem_head? hc))
      (fun c hc => hall c (List.mem_of_getLast? hc)) (by simp)
  rwa [List.append_nil, List.nil_append] at whole

/-! ## Leading digits -/

/-- The digits of a positive number do not begin with a zero. -/
theorem head?_natural_ne_zero {n : Nat} (h : n ≠ 0) : (natural n).head? ≠ some '0' := by
  induction n using Nat.strongRecOn with
  | ind n ih =>
    rw [natural, Nat.toDigits_eq_if (by decide)]
    split
    · next small =>
      have single : ∀ m < 10, m ≠ 0 → [m.digitChar].head? ≠ some '0' := by decide
      exact single n small h
    · have higher : n / 10 ≠ 0 := by omega
      obtain ⟨c, rest, hc, -⟩ := natural_eq_cons (n / 10)
      have hne := ih (n / 10) (by omega) higher
      rw [hc] at hne
      rw [natural] at hc
      rw [hc]
      exact hne

/-- A zero in front of the digits of a number is all of them. -/
theorem natural_eq_zero_cons {n : Nat} {rest : List Char} (h : natural n = '0' :: rest) :
    rest = [] := by
  by_cases hn : n = 0
  · subst hn
    exact (List.cons.inj h).2.symm
  · exact absurd (by rw [h]; rfl) (head?_natural_ne_zero hn)

/-- A digit is all the digits of its value. -/
theorem natural_of_isDigit {c : Char} (h : c.isDigit = true) :
    c.toNat - '0'.toNat < 10 ∧ natural (c.toNat - '0'.toNat) = [c] := by
  obtain ⟨low, high⟩ := toNat_of_isDigit h
  have small : c.toNat - '0'.toNat < 10 := by omega
  have digits : ∀ n < 10, n.digitChar = Char.ofNat ('0'.toNat + n) := by decide
  refine ⟨small, ?_⟩
  rw [natural, Nat.toDigits_of_lt_base small, digits _ small, Nat.add_sub_cancel' low,
    Char.ofNat_toNat]

/-- Digits after those of a positive number are the digits of the number that they make of it. -/
theorem natural_ofDigitChars {digits : List Char} (h : ∀ c ∈ digits, c.isDigit = true) {n : Nat}
    (positive : 0 < n) : natural (Nat.ofDigitChars 10 digits n) = natural n ++ digits := by
  induction digits generalizing n with
  | nil => simp
  | cons c rest ih =>
    obtain ⟨digit, others⟩ := List.forall_mem_cons.1 h
    obtain ⟨small, single⟩ := natural_of_isDigit digit
    have next : natural (10 * n + (c.toNat - '0'.toNat)) = natural n ++ [c] := by
      rw [← single]
      exact (Nat.toDigits_append_toDigits (by decide) positive small).symm
    rw [Nat.ofDigitChars_cons, ih others (by omega), next, List.append_assoc, List.singleton_append]

/-- Digits with no zero in front are the digits of their value. -/
theorem natural_digitsValue {digits : List Char} (h : AllDigits digits)
    (zero : ∀ rest, digits = '0' :: rest → rest = []) : natural (digitsValue digits) = digits := by
  obtain ⟨c, rest, rfl⟩ := List.exists_cons_of_ne_nil h.1
  obtain ⟨digit, others⟩ := List.forall_mem_cons.1 h.2
  obtain ⟨-, single⟩ := natural_of_isDigit digit
  by_cases hc : c = '0'
  · subst hc
    obtain rfl := zero rest rfl
    rfl
  · have positive : 0 < c.toNat - '0'.toNat := by
      refine Nat.pos_of_ne_zero fun none => hc ?_
      rw [none] at single
      exact (List.cons.inj single).1.symm
    rw [digitsValue, Nat.ofDigitChars_cons, Nat.mul_zero, Nat.zero_add,
      natural_ofDigitChars others positive, single, List.singleton_append]

end QueryPipeline.Text
