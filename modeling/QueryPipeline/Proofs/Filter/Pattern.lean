import QueryPipeline.Proofs.Filter.Entry

/-!
# How the store reads a pattern

A pattern is read character by character: a backslash before a mark makes the mark stand for itself,
a character without a meaning of its own stands for itself, and `^` and `$` are the start and the
end of the text (`Pattern.Reads`). No pattern is read in two ways (`Pattern.Reads.unique`), and a
pattern in which another character with a meaning of its own stands bare is not read at all. The
options of a pattern say whether case counts and whether lines count as texts (`Pattern.Matches`).

An escaped text is read as the literals of its characters, whatever follows it
(`Pattern.reads_escape_append`), and literals match a part of the subject that is the text itself up
to case (`Pattern.matchesFrom_literals_iff`). `patterns_match_literally` says of the three operators
that match patterns that they look for the client's text and nothing else.
-/

namespace QueryPipeline

namespace Pattern

/-! ## Reading a pattern -/

/-- The characters that somewhere in a pattern have a meaning of their own: the escape, the ends of
a text, any character, classes and what is special in them, groups, choices, repetitions and
comments. -/
def special : List Char :=
  ['\\', '^', '$', '.', '[', ']', '-', '&', '~', '(', ')', '|', '*', '+', '?', '\x7b', '\x7d', '#']

/-- A printed ASCII character that is neither a letter nor a digit nor a space. -/
def IsMark (c : Char) : Prop :=
  '!' ≤ c ∧ c ≤ '~' ∧ ¬ c.isAlphanum

instance (c : Char) : Decidable (IsMark c) :=
  inferInstanceAs (Decidable (_ ∧ _ ∧ _))

/-- What a piece of a pattern stands for. -/
inductive Token where
  | literal (c : Char)
  | textStart
  | textEnd

/-- A pattern is read as a list of tokens. -/
inductive Reads : List Char → List Token → Prop
  | nil : Reads [] []
  | escaped {c : Char} {cs : List Char} {tokens : List Token} (mark : IsMark c)
      (rest : Reads cs tokens) : Reads ('\\' :: c :: cs) (.literal c :: tokens)
  | bare {c : Char} {cs : List Char} {tokens : List Token} (plain : c ∉ special)
      (rest : Reads cs tokens) : Reads (c :: cs) (.literal c :: tokens)
  | textStart {cs : List Char} {tokens : List Token} (rest : Reads cs tokens) :
      Reads ('^' :: cs) (.textStart :: tokens)
  | textEnd {cs : List Char} {tokens : List Token} (rest : Reads cs tokens) :
      Reads ('$' :: cs) (.textEnd :: tokens)

/-- A pattern is read in one way at most. -/
theorem Reads.unique {pattern : List Char} {tokens other : List Token}
    (h : Reads pattern tokens) (h' : Reads pattern other) : tokens = other := by
  induction h generalizing other with
  | nil =>
    cases h'
    rfl
  | escaped _ _ ih =>
    cases h' with
    | escaped _ rest => rw [ih rest]
    | bare plain => exact absurd (by decide) plain
  | bare plain _ ih =>
    cases h' with
    | bare _ rest => rw [ih rest]
    | escaped | textStart | textEnd => exact absurd (by decide) plain
  | textStart _ ih =>
    cases h' with
    | textStart rest => rw [ih rest]
    | bare plain => exact absurd (by decide) plain
  | textEnd _ ih =>
    cases h' with
    | textEnd rest => rw [ih rest]
    | bare plain => exact absurd (by decide) plain

/-- What is escaped can be escaped. -/
theorem isMark_of_mem_metaChars {c : Char} (h : c ∈ metaChars) : IsMark c := by
  have marks : metaChars.all (IsMark ·) := by decide
  exact of_decide_eq_true (List.all_eq_true.1 marks c h)

/-- What is not escaped need not be. -/
theorem not_mem_special_of_not_mem_metaChars {c : Char} (h : c ∉ metaChars) : c ∉ special := by
  have escaped : special ⊆ metaChars := by decide
  exact fun hc => h (escaped hc)

/-- An escaped text is read as the literals of its characters, whatever follows it. -/
theorem reads_escape_append (text : List Char) {rest : List Char} {tokens : List Token}
    (h : Reads rest tokens) : Reads (escape text ++ rest) (text.map .literal ++ tokens) := by
  induction text with
  | nil => exact h
  | cons c text ih =>
    have hescape : escape (c :: text) ++ rest = escapeChar c ++ (escape text ++ rest) := by
      rw [escape, List.flatMap_cons, List.append_assoc]
      rfl
    rw [hescape, escapeChar]
    by_cases hc : c ∈ metaChars
    · rw [if_pos hc]
      exact .escaped (isMark_of_mem_metaChars hc) ih
    · rw [if_neg hc]
      exact .bare (not_mem_special_of_not_mem_metaChars hc) ih

/-- The pattern of a beginning is read as the start of the text and the literals of its text. -/
theorem reads_beginning {text : String} :
    Reads (beginning text).toList (.textStart :: text.toList.map .literal) := by
  have h := Reads.textStart (reads_escape_append text.toList .nil)
  simpa only [beginning, String.toList_ofList, List.append_nil] using h

/-- The pattern of an ending is read as the literals of its text and the end of the text. -/
theorem reads_ending {text : String} :
    Reads (ending text).toList (text.toList.map .literal ++ [.textEnd]) := by
  rw [ending, String.toList_ofList]
  exact reads_escape_append text.toList (.textEnd .nil)

/-- The pattern of a part is read as the literals of its text. -/
theorem reads_within {text : String} :
    Reads (within text).toList (text.toList.map .literal) := by
  have h := reads_escape_append text.toList .nil
  simpa only [within, String.toList_ofList, List.append_nil] using h

/-! ## Matching a text -/

section
variable (folding : Setoid Char) (options : String)

/-- A character of the pattern admits a character of the text: itself, or by the option `i` any that
differs from it in case only. -/
def Admits (c d : Char) : Prop :=
  if 'i' ∈ options.toList then folding.r c d else c = d

/-- Nothing stands before a place in the text, or by the option `m` a line ends there. -/
def IsStart (before : List Char) : Prop :=
  before = [] ∨ ('m' ∈ options.toList ∧ before.getLast? = some '\n')

/-- Nothing stands after a place in the text, or by the option `m` a line ends there. -/
def IsEnd (after : List Char) : Prop :=
  after = [] ∨ ('m' ∈ options.toList ∧ after.head? = some '\n')

/-- Tokens match a text from the place between two parts of it on. -/
inductive MatchesFrom : List Token → List Char → List Char → Prop
  | nil {before after : List Char} : MatchesFrom [] before after
  | literal {c d : Char} {tokens : List Token} {before after : List Char}
      (admits : Admits folding options c d) (rest : MatchesFrom tokens (before ++ [d]) after) :
      MatchesFrom (.literal c :: tokens) before (d :: after)
  | textStart {tokens : List Token} {before after : List Char} (start : IsStart options before)
      (rest : MatchesFrom tokens before after) : MatchesFrom (.textStart :: tokens) before after
  | textEnd {tokens : List Token} {before after : List Char} (stop : IsEnd options after)
      (rest : MatchesFrom tokens before after) : MatchesFrom (.textEnd :: tokens) before after

/-- A pattern matches a text: it can be read, and what it is read as matches from some place on. -/
def Matches (pattern subject : String) : Prop :=
  ∃ tokens before after, Reads pattern.toList tokens ∧ subject.toList = before ++ after ∧
    MatchesFrom folding options tokens before after

variable {folding : Setoid Char} {options : String}

/-- A pattern that is read matches as its tokens do. -/
theorem Reads.matches_iff {pattern subject : String} {tokens : List Token}
    (h : Reads pattern.toList tokens) :
    Matches folding options pattern subject ↔ ∃ before after, subject.toList = before ++ after ∧
      MatchesFrom folding options tokens before after := by
  constructor
  · rintro ⟨other, before, after, h', split, found⟩
    exact ⟨before, after, split, h.unique h' ▸ found⟩
  · rintro ⟨before, after, split, found⟩
    exact ⟨tokens, before, after, h, split, found⟩

/-- Literals match the part of the text that is next, character by character. -/
theorem matchesFrom_literals_iff {text : List Char} {tokens : List Token}
    {before after : List Char} :
    MatchesFrom folding options (text.map .literal ++ tokens) before after ↔
      ∃ part rest, after = part ++ rest ∧ List.Forall₂ (Admits folding options) text part ∧
        MatchesFrom folding options tokens (before ++ part) rest := by
  induction text generalizing before after with
  | nil =>
    constructor
    · intro h
      exact ⟨[], after, rfl, .nil, by simpa using h⟩
    · rintro ⟨part, rest, rfl, hpart, h⟩
      cases hpart
      simpa using h
  | cons c text ih =>
    constructor
    · intro h
      cases h with
      | literal admits h =>
        obtain ⟨part, rest, rfl, hpart, h⟩ := ih.1 h
        exact ⟨_ :: part, rest, rfl, .cons admits hpart, by simpa using h⟩
    · rintro ⟨part, rest, rfl, hpart, h⟩
      cases hpart with
      | cons admits hpart => exact .literal admits (ih.2 ⟨_, rest, rfl, hpart, by simpa using h⟩)

/-- Literals alone match the part of the text that is next. -/
theorem matchesFrom_only_literals_iff {text before after : List Char} :
    MatchesFrom folding options (text.map .literal) before after ↔
      ∃ part rest, after = part ++ rest ∧ List.Forall₂ (Admits folding options) text part := by
  have done (before after : List Char) : MatchesFrom folding options [] before after := .nil
  rw [← List.append_nil (text.map Token.literal), matchesFrom_literals_iff]
  simp only [done, and_true]

/-- The start of the text matches where nothing stands before, unless lines count as texts. -/
theorem matchesFrom_textStart_iff {tokens : List Token} {before after : List Char}
    (whole : 'm' ∉ options.toList) :
    MatchesFrom folding options (.textStart :: tokens) before after ↔
      before = [] ∧ MatchesFrom folding options tokens before after := by
  constructor
  · rintro (_ | _ | ⟨start, rest⟩)
    exact ⟨start.resolve_right fun h => whole h.1, rest⟩
  · rintro ⟨start, rest⟩
    exact .textStart (.inl start) rest

/-- The end of the text matches where nothing stands after, unless lines count as texts. -/
theorem matchesFrom_textEnd_iff {before after : List Char} (whole : 'm' ∉ options.toList) :
    MatchesFrom folding options [.textEnd] before after ↔ after = [] := by
  constructor
  · rintro (_ | _ | _ | ⟨stop, -⟩)
    exact stop.resolve_right fun h => whole h.1
  · intro stop
    exact .textEnd (.inl stop) .nil

/-- By the option `i` a character admits what differs from it in case only. -/
theorem admits_ignoring_case : Admits folding "i" = folding.r := by
  funext c d
  exact if_pos (by decide)

/-- Without the option `m` lines do not count as texts. -/
theorem whole_ignoring_case : 'm' ∉ ("i" : String).toList := by
  decide

/-- A pattern of a beginning matches what begins with the text, up to case. -/
theorem matches_beginning_iff {text subject : String} :
    Matches folding "i" (beginning text) subject ↔
      ∃ part, part <+: subject.toList ∧ List.Forall₂ folding.r text.toList part := by
  rw [reads_beginning.matches_iff]
  simp only [matchesFrom_textStart_iff whole_ignoring_case, matchesFrom_only_literals_iff,
    admits_ignoring_case]
  constructor
  · rintro ⟨_, _, split, rfl, part, rest, rfl, hpart⟩
    exact ⟨part, ⟨rest, split.symm⟩, hpart⟩
  · rintro ⟨part, ⟨rest, split⟩, hpart⟩
    exact ⟨[], _, split.symm, rfl, part, rest, rfl, hpart⟩

/-- A pattern of an ending matches what ends with the text, up to case. -/
theorem matches_ending_iff {text subject : String} :
    Matches folding "i" (ending text) subject ↔
      ∃ part, part <:+ subject.toList ∧ List.Forall₂ folding.r text.toList part := by
  rw [reads_ending.matches_iff]
  simp only [matchesFrom_literals_iff, matchesFrom_textEnd_iff whole_ignoring_case,
    admits_ignoring_case]
  constructor
  · rintro ⟨before, _, split, part, _, rfl, hpart, rfl⟩
    exact ⟨part, ⟨before, by rw [split, List.append_nil]⟩, hpart⟩
  · rintro ⟨part, ⟨before, split⟩, hpart⟩
    exact ⟨before, part, split.symm, part, [], (List.append_nil part).symm, hpart, rfl⟩

/-- A pattern of a part matches what holds the text, up to case. -/
theorem matches_within_iff {text subject : String} :
    Matches folding "i" (within text) subject ↔
      ∃ part, part <:+: subject.toList ∧ List.Forall₂ folding.r text.toList part := by
  rw [reads_within.matches_iff]
  simp only [matchesFrom_only_literals_iff, admits_ignoring_case]
  constructor
  · rintro ⟨before, _, split, part, rest, rfl, hpart⟩
    exact ⟨part, ⟨before, rest, by rw [split, List.append_assoc]⟩, hpart⟩
  · rintro ⟨part, ⟨before, rest, split⟩, hpart⟩
    exact ⟨before, part ++ rest, by rw [← split, List.append_assoc], part, rest, rfl, hpart⟩

end

end Pattern

/-! ## The operators that match patterns -/

/-- A condition compiles, under its label, to a pattern that is matched without regard to case. The
pattern is read as the given tokens and in no other way, and it matches the wanted texts and no
others. -/
def Condition.LooksFor (folding : Setoid Char) (resolver : Resolver) (policy : UnknownPolicy)
    (c : Condition) (tokens : List Pattern.Token) (wanted : String → Prop) : Prop :=
  ∃ pattern, c.compile resolver policy =
      .ok [(c.label, .document [("$regex", .string pattern), ("$options", .string "i")])] ∧
    (∀ other, Pattern.Reads pattern.toList other ↔ other = tokens) ∧
    ∀ subject, Pattern.Matches folding "i" pattern subject ↔ wanted subject

/-- A condition looks for what the pattern of its operator matches. -/
theorem Condition.looksFor_of_pattern? {folding : Setoid Char} {resolver : Resolver}
    {policy : UnknownPolicy} {operator : Operator} {build : String → String}
    (h : operator.pattern? = some build) (label : PlainName) {text : String}
    {tokens : List Pattern.Token} (read : Pattern.Reads (build text).toList tokens)
    {wanted : String → Prop}
    (found : ∀ subject, Pattern.Matches folding "i" (build text) subject ↔ wanted subject) :
    LooksFor folding resolver policy ⟨label.name, operator, .string text⟩ tokens wanted := by
  have yields : Condition.Yields resolver policy ⟨label.name, operator, .string text⟩
      (.labelled label (.pattern (build text))) := .pattern h rfl rfl
  refine ⟨build text, yields.compile_eq, fun other => ?_, found⟩
  constructor
  · exact fun h => h.unique read
  · rintro rfl
    exact read

/-- The operators that match patterns look for the client's text, whatever it is: each character of
it is a literal of the pattern, which has nothing else of a meaning of its own than the end at which
the operator looks. So a text is matched exactly if it begins with the client's text, ends with it or
holds it, where characters count as the same that differ in case only. -/
theorem patterns_match_literally (folding : Setoid Char) (resolver : Resolver)
    (policy : UnknownPolicy) (label : PlainName) (text : String) :
    let literals := text.toList.map Pattern.Token.literal
    let SameText := List.Forall₂ folding.r text.toList
    Condition.LooksFor folding resolver policy ⟨label.name, .ofName "Start With", .string text⟩
        (.textStart :: literals)
        (fun subject => ∃ part, part <+: subject.toList ∧ SameText part) ∧
      Condition.LooksFor folding resolver policy ⟨label.name, .ofName "End With", .string text⟩
        (literals ++ [.textEnd])
        (fun subject => ∃ part, part <:+ subject.toList ∧ SameText part) ∧
      Condition.LooksFor folding resolver policy ⟨label.name, .ofName "Include", .string text⟩
        literals
        (fun subject => ∃ part, part <:+: subject.toList ∧ SameText part) :=
  ⟨Condition.looksFor_of_pattern? rfl label Pattern.reads_beginning
      fun _ => Pattern.matches_beginning_iff,
    Condition.looksFor_of_pattern? rfl label Pattern.reads_ending
      fun _ => Pattern.matches_ending_iff,
    Condition.looksFor_of_pattern? rfl label Pattern.reads_within
      fun _ => Pattern.matches_within_iff⟩

end QueryPipeline
