import QueryPipeline.Json.Write
import QueryPipeline.Proofs.Json.Grammar
import QueryPipeline.Proofs.Text.Number
import Mathlib.Data.List.Forall2

/-!
# What is written is JSON

Each piece of text that is written spells a tree: a string in quotes spells its content
(`spells_writeText`), a whole number spells its digits (`spells_natural`, `spells_integer`), and an
array or an object of parts that spell trees spells the tree of those (`spells_writeArray`,
`spells_writeObject`). No spaces are written, so of the grammar only the tokens count here.
-/

namespace QueryPipeline.Json

/-! ## Trees of what is written -/

/-- The tree of a text in quotes. -/
def Node.ofText (text : String) : Node :=
  .string (.text text)

/-- The elements of an array that is written in full. -/
def Items.ofList : List Node → Items
  | [] => .closed
  | node :: rest => .cons node (ofList rest)

/-- The members of an object that is written in full. -/
def Members.ofList : List (String × Node) → Members
  | [] => .closed
  | (name, node) :: rest => .cons (.text name) node (ofList rest)

/-- The tree of an object with one member. -/
def Node.single (name : String) (node : Node) : Node :=
  .object (.ofList [(name, node)])

/-- The number of a natural number as written. -/
def Numeral.ofNatural (n : Nat) : Numeral :=
  .written ⟨false, Text.natural n, [], none⟩

/-- The number of a whole number as written. -/
def Numeral.ofInteger (n : Int) : Numeral :=
  .written ⟨decide (n < 0), Text.natural n.natAbs, [], none⟩

/-! ## Strings -/

/-- The number of a control character is written with four digits. -/
theorem codeUnit?_encodeByte {n : Nat} (h : n < 0x20) :
    codeUnit? '0' '0' (Nat.digitChar ((UInt8.ofNat n).toNat / 16))
      (Nat.digitChar ((UInt8.ofNat n).toNat % 16)) = some n := by
  have all : ∀ n < 0x20, codeUnit? '0' '0' (Nat.digitChar ((UInt8.ofNat n).toNat / 16))
      (Nat.digitChar ((UInt8.ofNat n).toNat % 16)) = some n := by decide
  exact all n h

/-- A character of a string is written as a part that stands for it. -/
theorem exists_spellsPiece_writeChar (c : Char) :
    ∃ piece, SpellsPiece (writeChar c) piece ∧
      ∀ rest, Piece.text? false (piece :: rest) = (Piece.text? false rest).map (c :: ·) := by
  unfold writeChar
  split
  · exact ⟨_, .short rfl, fun rest => rfl⟩
  · exact ⟨_, .short rfl, fun rest => rfl⟩
  · exact ⟨_, .short rfl, fun rest => rfl⟩
  · exact ⟨_, .short rfl, fun rest => rfl⟩
  · exact ⟨_, .short rfl, fun rest => rfl⟩
  · exact ⟨_, .short rfl, fun rest => rfl⟩
  · exact ⟨_, .short rfl, fun rest => rfl⟩
  · next quote backslash _ _ _ _ _ =>
    split
    · next control =>
      refine ⟨.unit c.toNat, .numbered (codeUnit?_encodeByte control), fun rest => ?_⟩
      have high : isHighSurrogate c.toNat = false := by grind [isHighSurrogate]
      have low : isLowSurrogate c.toNat = false := by grind [isLowSurrogate]
      conv_lhs => unfold Piece.text?
      simp [high, low, Char.ofNat_toNat]
    · next control =>
      exact ⟨.char c, .plain quote backslash (by omega), fun rest => rfl⟩

/-- The characters of a string are written as parts that stand for them. -/
theorem exists_spellsPieces_flatMap (content : List Char) :
    ∃ pieces, SpellsPieces (content.flatMap writeChar) pieces ∧
      Piece.text? false pieces = some content := by
  induction content with
  | nil => exact ⟨[], .nil, rfl⟩
  | cons c rest ih =>
    obtain ⟨pieces, spells, htext⟩ := ih
    obtain ⟨piece, hpiece, stands⟩ := exists_spellsPiece_writeChar c
    refine ⟨piece :: pieces, .cons hpiece spells, ?_⟩
    rw [stands, htext, Option.map_some]

/-- A text in quotes is a string after its opening quote. -/
theorem spellsString_flatMap (text : String) :
    SpellsString (text.toList.flatMap writeChar ++ ['"']) (.text text) := by
  obtain ⟨pieces, spells, htext⟩ := exists_spellsPieces_flatMap text.toList
  have h := SpellsString.mk spells
  rw [Quoted.ofPieces, htext] at h
  simpa using h

/-- A text in quotes is a string with that content. -/
theorem spells_writeText (text : String) : SpellsValue (writeText text) (.ofText text) :=
  .string (spellsString_flatMap text)

/-! ## Whole numbers -/

/-- The digits of a natural number are digits. -/
theorem allDigits_natural (n : Nat) : AllDigits (Text.natural n) :=
  ⟨Text.natural_ne_nil n, fun _ h => Text.isDigit_of_mem_natural h⟩

/-- Zero is a digit. -/
theorem allDigits_zero : AllDigits ['0'] :=
  allDigits_natural 0

/-- A natural number is written as a number. -/
theorem spells_natural (n : Nat) :
    SpellsValue (Text.natural n) (.number (.ofNatural n)) := by
  have h := SpellsNumber.mk .positive (allDigits_natural n) (fun _ => Text.natural_eq_zero_cons) .none .none
  simpa [Numeral.ofNatural] using SpellsValue.number h

/-- A whole number is written as a number. -/
theorem spells_integer (n : Int) :
    SpellsValue (Text.integer n) (.number (.ofInteger n)) := by
  cases n with
  | ofNat n => exact spells_natural n
  | negSucc n =>
    have h := SpellsNumber.mk .negative (allDigits_natural (n + 1)) (fun _ => Text.natural_eq_zero_cons) .none .none
    simpa [Text.integer, Numeral.ofInteger] using SpellsValue.number h

/-! ## Arrays and objects -/

/-- Nothing is nothing but spaces. -/
theorem allSpace_nil : AllSpace [] :=
  fun _ h => absurd h List.not_mem_nil

/-- A value that is written is the text of its tree. -/
theorem SpellsValue.spells {piece : List Char} {node : Node} (h : SpellsValue piece node) :
    Spells (String.ofList piece) node :=
  .mk (String.toList_ofList.trans (List.append_nil _).symm) allSpace_nil h allSpace_nil

/-- Parts with commas between them are the elements of an array. -/
theorem spellsItems_joinParts {part : List Char} {parts : List (List Char)} {node : Node}
    {nodes : List Node} (head : SpellsValue part node)
    (tail : List.Forall₂ SpellsValue parts nodes) :
    SpellsItems (joinParts (part :: parts) ++ [']']) (.ofList (node :: nodes)) := by
  induction tail generalizing part node with
  | nil => exact .last allSpace_nil head allSpace_nil
  | cons second _ ih =>
    have h := SpellsItems.cons allSpace_nil head allSpace_nil (ih second)
    simpa [joinParts, Items.ofList] using h

/-- An array of written elements. -/
theorem spells_writeArray {parts : List (List Char)} {nodes : List Node}
    (h : List.Forall₂ SpellsValue parts nodes) :
    SpellsValue (writeArray parts) (.array (.ofList nodes)) := by
  cases h with
  | nil => exact .emptyArray allSpace_nil
  | cons head tail => exact .array (spellsItems_joinParts head tail)

/-- A part of an object that is written: a name and what spells a tree. -/
def SpellsMember (part : List Char) (member : String × Node) : Prop :=
  ∃ value, part = writeMember member.1 value ∧ SpellsValue value member.2

/-- A name and a written value are a member. -/
theorem spellsMember_writeMember {value : List Char} {node : Node} (name : String)
    (h : SpellsValue value node) : SpellsMember (writeMember name value) (name, node) :=
  ⟨value, rfl, h⟩

/-- A text in quotes and a colon are the name of a member. -/
theorem spellsName_writeText (name : String) : SpellsName (writeText name ++ [':']) (.text name) := by
  have spells := SpellsName.mk allSpace_nil (spellsString_flatMap name) allSpace_nil
  simpa [writeText] using spells

/-- Parts with commas between them are the members of an object. -/
theorem spellsMembers_joinParts {part : List Char} {parts : List (List Char)}
    {member : String × Node} {members : List (String × Node)} (head : SpellsMember part member)
    (tail : List.Forall₂ SpellsMember parts members) :
    SpellsMembers (joinParts (part :: parts) ++ ['\x7d']) (.ofList (member :: members)) := by
  induction tail generalizing part member with
  | nil =>
    obtain ⟨value, rfl, h⟩ := head
    have spells := SpellsMembers.last (spellsName_writeText member.1) allSpace_nil h allSpace_nil
    simpa [joinParts, writeMember, Members.ofList] using spells
  | cons second _ ih =>
    obtain ⟨value, rfl, h⟩ := head
    have spells := SpellsMembers.cons (spellsName_writeText member.1) allSpace_nil h allSpace_nil
      (ih second)
    simpa [joinParts, writeMember, Members.ofList] using spells

/-- An object of written members. -/
theorem spells_writeObject {parts : List (List Char)} {members : List (String × Node)}
    (h : List.Forall₂ SpellsMember parts members) :
    SpellsValue (writeObject parts) (.object (.ofList members)) := by
  cases h with
  | nil => exact .emptyObject allSpace_nil
  | cons head tail => exact .object (spellsMembers_joinParts head tail)

/-- An object of one member. -/
theorem spells_writeSingle {value : List Char} {node : Node} (name : String)
    (h : SpellsValue value node) : SpellsValue (writeSingle name value) (.single name node) :=
  spells_writeObject (.cons (spellsMember_writeMember name h) .nil)

/-- An array of bytes. -/
theorem spells_writeBytes (bytes : List UInt8) :
    SpellsValue (writeBytes bytes)
      (.array (.ofList (bytes.map fun b => .number (.ofNatural b.toNat)))) := by
  refine spells_writeArray ?_
  rw [List.forall₂_map_left_iff, List.forall₂_map_right_iff]
  exact List.forall₂_same.2 fun b _ => spells_natural b.toNat

end QueryPipeline.Json
