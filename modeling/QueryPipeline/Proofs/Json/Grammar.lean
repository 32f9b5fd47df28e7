import QueryPipeline.Json.Scan

/-!
# The grammar of JSON

Which texts are JSON, said without regard to how they are scanned: `Spells text node` relates a text
to the tree that it writes, and `IsJson` holds of the texts that write some tree. Between its tokens
a text may hold spaces. A string is related to its parts and not to its content, since parts that
stand for no text, such as one half of a pair of surrogates, are JSON too.
-/

namespace QueryPipeline.Json

/-- Nothing but spaces. -/
def AllSpace (text : List Char) : Prop :=
  ∀ c ∈ text, isSpace c = true

/-- Digits, one at least, and nothing else. -/
def AllDigits (text : List Char) : Prop :=
  text ≠ [] ∧ ∀ c ∈ text, c.isDigit = true

/-! ## Strings -/

/-- A part of a string: a character for itself, which no control character is, or an escape. -/
inductive SpellsPiece : List Char → Piece → Prop
  | plain {c : Char} (quote : c ≠ '"') (backslash : c ≠ '\\') (control : 0x20 ≤ c.toNat) :
      SpellsPiece [c] (.char c)
  | short {mark c : Char} (h : escaped? mark = some c) : SpellsPiece ['\\', mark] (.char c)
  | numbered {a b c d : Char} {code : Nat} (h : codeUnit? a b c d = some code) :
      SpellsPiece ['\\', 'u', a, b, c, d] (.unit code)

/-- The parts of a string in order. -/
inductive SpellsPieces : List Char → List Piece → Prop
  | nil : SpellsPieces [] []
  | cons {text rest : List Char} {piece : Piece} {pieces : List Piece}
      (head : SpellsPiece text piece) (tail : SpellsPieces rest pieces) :
      SpellsPieces (text ++ rest) (piece :: pieces)

/-- The string of parts that hold no control character. -/
def Quoted.ofPieces (pieces : List Piece) : Quoted :=
  match Piece.text? false pieces with
  | some content => .text (String.ofList content)
  | none => .loose pieces none

/-- A string after its opening quote. -/
inductive SpellsString : List Char → Quoted → Prop
  | mk {text : List Char} {pieces : List Piece} (h : SpellsPieces text pieces) :
      SpellsString (text ++ ['"']) (.ofPieces pieces)

/-- The name of a member, with the colon. -/
inductive SpellsName : List Char → Quoted → Prop
  | mk {before text after : List Char} {key : Quoted} (hbefore : AllSpace before)
      (h : SpellsString text key) (hafter : AllSpace after) :
      SpellsName (before ++ '"' :: (text ++ (after ++ [':']))) key

/-! ## Numbers -/

/-- The sign of a number, which is written only if it is negative. -/
inductive SpellsSign : List Char → Bool → Prop
  | positive : SpellsSign [] false
  | negative : SpellsSign ['-'] true

/-- The sign of an exponent, which may be written in any case. -/
inductive SpellsExponentSign : List Char → Bool → Prop
  | unsigned : SpellsExponentSign [] false
  | positive : SpellsExponentSign ['+'] false
  | negative : SpellsExponentSign ['-'] true

/-- The digits after the point, with the point. -/
inductive SpellsFraction : List Char → List Char → Prop
  | none : SpellsFraction [] []
  | some {digits : List Char} (h : AllDigits digits) : SpellsFraction ('.' :: digits) digits

/-- The exponent with its mark. -/
inductive SpellsExponent : List Char → Option (Bool × List Char) → Prop
  | none : SpellsExponent [] none
  | some {mark : Char} {sign digits : List Char} {negative : Bool} (hmark : mark = 'e' ∨ mark = 'E')
      (hsign : SpellsExponentSign sign negative) (h : AllDigits digits) :
      SpellsExponent (mark :: (sign ++ digits)) (some (negative, digits))

/-- A number; no digits follow a zero in front. -/
inductive SpellsNumber : List Char → Numeral → Prop
  | mk {sign whole point exponent fraction : List Char} {negative : Bool}
      {power : Option (Bool × List Char)} (hsign : SpellsSign sign negative)
      (hwhole : AllDigits whole) (zero : ∀ rest, whole = '0' :: rest → rest = [])
      (hpoint : SpellsFraction point fraction) (hexponent : SpellsExponent exponent power) :
      SpellsNumber (sign ++ (whole ++ (point ++ exponent)))
        (.written ⟨negative, whole, fraction, power⟩)

/-! ## Values -/

mutual

/-- A value, without spaces around it. -/
inductive SpellsValue : List Char → Node → Prop
  | null : SpellsValue ['n', 'u', 'l', 'l'] .null
  | yes : SpellsValue ['t', 'r', 'u', 'e'] (.boolean true)
  | no : SpellsValue ['f', 'a', 'l', 's', 'e'] (.boolean false)
  | number {text : List Char} {n : Numeral} (h : SpellsNumber text n) : SpellsValue text (.number n)
  | string {text : List Char} {s : Quoted} (h : SpellsString text s) :
      SpellsValue ('"' :: text) (.string s)
  | emptyArray {space : List Char} (h : AllSpace space) :
      SpellsValue ('[' :: (space ++ [']'])) (.array .closed)
  | array {text : List Char} {items : Items} (h : SpellsItems text items) :
      SpellsValue ('[' :: text) (.array items)
  | emptyObject {space : List Char} (h : AllSpace space) :
      SpellsValue ('\x7b' :: (space ++ ['\x7d'])) (.object .closed)
  | object {text : List Char} {members : Members} (h : SpellsMembers text members) :
      SpellsValue ('\x7b' :: text) (.object members)

/-- The elements of an array, of which there is one at least, with the closing bracket. -/
inductive SpellsItems : List Char → Items → Prop
  | last {before piece after : List Char} {node : Node} (hbefore : AllSpace before)
      (h : SpellsValue piece node) (hafter : AllSpace after) :
      SpellsItems (before ++ (piece ++ (after ++ [']']))) (.cons node .closed)
  | cons {before piece after rest : List Char} {node : Node} {items : Items}
      (hbefore : AllSpace before) (h : SpellsValue piece node) (hafter : AllSpace after)
      (hrest : SpellsItems rest items) :
      SpellsItems (before ++ (piece ++ (after ++ ',' :: rest))) (.cons node items)

/-- The members of an object, of which there is one at least, with the closing brace. -/
inductive SpellsMembers : List Char → Members → Prop
  | last {name before piece after : List Char} {key : Quoted} {node : Node}
      (hname : SpellsName name key) (hbefore : AllSpace before) (h : SpellsValue piece node)
      (hafter : AllSpace after) :
      SpellsMembers (name ++ (before ++ (piece ++ (after ++ ['\x7d'])))) (.cons key node .closed)
  | cons {name before piece after rest : List Char} {key : Quoted} {node : Node}
      {members : Members} (hname : SpellsName name key) (hbefore : AllSpace before)
      (h : SpellsValue piece node) (hafter : AllSpace after) (hrest : SpellsMembers rest members) :
      SpellsMembers (name ++ (before ++ (piece ++ (after ++ ',' :: rest)))) (.cons key node members)

end

/-! ## Texts -/

/-- A text that writes a tree, with spaces around it. -/
inductive Spells (text : String) (node : Node) : Prop
  | mk {before piece after : List Char} (htext : text.toList = before ++ (piece ++ after))
      (hbefore : AllSpace before) (h : SpellsValue piece node) (hafter : AllSpace after) :
      Spells text node

/-- Spaces after a text change nothing of what it spells. -/
theorem Spells.append_spaces {text : String} {node : Node} (h : Spells text node)
    {spaces : List Char} (hspaces : AllSpace spaces) :
    Spells (text ++ String.ofList spaces) node := by
  obtain ⟨htext, hbefore, hvalue, hafter⟩ := h
  refine .mk ?_ hbefore hvalue fun c mem => (List.mem_append.1 mem).elim (hafter c) (hspaces c)
  rw [String.toList_append, String.toList_ofList, htext]
  simp only [List.append_assoc]

/-- A text that is JSON. -/
def IsJson (text : String) : Prop :=
  ∃ node, Spells text node

end QueryPipeline.Json
