import QueryPipeline.Text.Shown

/-!
# Quoted text in messages

Messages about a rejected text show it in double quotes. The quote, the backslash and the usual
controls have a two-character form; any other character without a shape is written by its number,
as `\u{7f}`.
-/

namespace QueryPipeline.Text

/-- The digits of a number in base sixteen, in lower case. -/
def hexNatural (n : Nat) : List Char :=
  Nat.toDigits 16 n

/-- One character as a quoted text writes it. -/
def quotedChar (c : Char) : List Char :=
  match c with
  | '"' => ['\\', '"']
  | '\\' => ['\\', '\\']
  | '\n' => ['\\', 'n']
  | '\r' => ['\\', 'r']
  | '\t' => ['\\', 't']
  | '\x00' => ['\\', '0']
  | c => if isShown c then [c] else ['\\', 'u', '\x7b'] ++ hexNatural c.toNat ++ ['\x7d']

/-- A text in double quotes. -/
def quoted (text : String) : String :=
  String.ofList (['"'] ++ text.toList.flatMap quotedChar ++ ['"'])

end QueryPipeline.Text
