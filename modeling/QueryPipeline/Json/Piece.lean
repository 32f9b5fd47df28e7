/-!
# The parts of a string

A string of a text is a list of parts (`Piece`): characters, and sixteen bits at a time written by
number. The parts are a text (`Piece.text?`) unless a control character stands among them or half
of a pair of surrogates has no partner. They are bytes in any case (`Piece.bytes`), and those of a
text are its encoding in UTF-8 (`bytes_of_text?_eq_some`).
-/

namespace QueryPipeline.Json

/-- A part of a string. -/
inductive Piece where
  | char (c : Char)
  /-- A control character that stands as itself, not escaped. -/
  | control (c : Char)
  /-- Sixteen bits written by number. -/
  | unit (code : Nat)
deriving DecidableEq, Repr

/-- The first half of a pair of surrogates. -/
def isHighSurrogate (code : Nat) : Bool :=
  0xd800 ≤ code && code < 0xdc00

/-- The second half of a pair of surrogates. -/
def isLowSurrogate (code : Nat) : Bool :=
  0xdc00 ≤ code && code < 0xe000

/-- The character of a pair of surrogates. -/
def pairedChar (high low : Nat) : Char :=
  Char.ofNat (0x10000 + (high - 0xd800) * 0x400 + (low - 0xdc00))

/-- The bytes of a number of sixteen bits that has no partner. A surrogate is encoded as if it
were a character. -/
def unitBytes (code : Nat) : List UInt8 :=
  if isHighSurrogate code || isLowSurrogate code then
    [UInt8.ofNat (0xe0 + code / 0x1000), UInt8.ofNat (0x80 + code / 0x40 % 0x40),
      UInt8.ofNat (0x80 + code % 0x40)]
  else String.utf8EncodeChar (Char.ofNat code)

namespace Piece

/-- The part is a control character that is not escaped. -/
def isControl : Piece → Bool
  | .control _ => true
  | _ => false

/-- The text of the parts of a string, unless they are none. The partner of the last part of a
broken string is not known to be missing. -/
def text? (isBroken : Bool) : List Piece → Option (List Char)
  | [] => some []
  | .char c :: rest => (text? isBroken rest).map (c :: ·)
  | .control _ :: _ => none
  | .unit code :: rest =>
    if isHighSurrogate code then
      match rest with
      | .unit low :: rest =>
        if isLowSurrogate low then (text? isBroken rest).map (pairedChar code low :: ·) else none
      | [] => if isBroken then some [] else none
      | _ => none
    else if isLowSurrogate code then none
    else (text? isBroken rest).map (Char.ofNat code :: ·)

/-- The bytes of the parts of a string. -/
def bytes : List Piece → List UInt8
  | [] => []
  | .char c :: rest => String.utf8EncodeChar c ++ bytes rest
  | .control c :: rest => String.utf8EncodeChar c ++ bytes rest
  | .unit high :: .unit low :: rest =>
    if isHighSurrogate high && isLowSurrogate low then
      String.utf8EncodeChar (pairedChar high low) ++ bytes rest
    else unitBytes high ++ bytes (.unit low :: rest)
  | .unit code :: rest => unitBytes code ++ bytes rest

/-- A number of sixteen bits that is no surrogate is a character, whatever follows it. -/
theorem bytes_unit_of_not_surrogate {code : Nat} (hh : isHighSurrogate code = false)
    (hl : isLowSurrogate code = false) (rest : List Piece) :
    bytes (.unit code :: rest) = String.utf8EncodeChar (Char.ofNat code) ++ bytes rest := by
  cases rest with
  | nil => simp [bytes, unitBytes, hh, hl]
  | cons next rest => cases next <;> simp [bytes, unitBytes, hh, hl]

/-- The bytes of a text are its encoding. -/
theorem bytes_of_text?_eq_some {pieces : List Piece} {content : List Char}
    (h : text? false pieces = some content) :
    bytes pieces = content.flatMap String.utf8EncodeChar := by
  fun_induction text? false pieces generalizing content with
  | case1 => simp_all [bytes]
  | case2 c rest ih =>
    obtain ⟨tail, ht, rfl⟩ := Option.map_eq_some_iff.1 h
    simp [bytes, ih ht]
  | case4 high hh low rest hl ih =>
    obtain ⟨tail, ht, rfl⟩ := Option.map_eq_some_iff.1 h
    simp [bytes, hh, hl, ih ht]
  | case10 code rest hh hl ih =>
    obtain ⟨tail, ht, rfl⟩ := Option.map_eq_some_iff.1 h
    simp [bytes_unit_of_not_surrogate, hh, hl, ih ht]
  | _ => simp_all

end Piece

end QueryPipeline.Json
