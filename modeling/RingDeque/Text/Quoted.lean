import RingDeque.Text.Graphic
import RingDeque.Text.Shown

/-!
# Quoted text

A text in double quotes, in which every character that would not show as itself is written by an
escape: the quote and the backslash behind a backslash, the usual controls by a letter, and any
other character without a shape of its own by its number.
-/

namespace RingDeque.Quoted

/-- The digits of a number to the base sixteen. -/
def hexadecimal (n : Nat) : List Char :=
  Nat.toDigits 16 n

/-- How a character is written between quotes. -/
def escape (c : Char) : List Char :=
  match c with
  | '"' => ['\\', '"']
  | '\\' => ['\\', '\\']
  | '\n' => ['\\', 'n']
  | '\t' => ['\\', 't']
  | '\r' => ['\\', 'r']
  | '\x00' => ['\\', '0']
  | c =>
    if Graphic.isGraphic c then [c] else ['\\', 'u', '\x7b'] ++ hexadecimal c.toNat ++ ['\x7d']

/-- A text between quotes. -/
def quote (text : String) : String :=
  String.ofList ('"' :: text.toList.flatMap escape ++ ['"'])

end RingDeque.Quoted
