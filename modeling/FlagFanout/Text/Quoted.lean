import FlagFanout.Text.Hidden

/-!
# Quoted text

`quoted` writes a text between double quotes so that every character can be told apart: quotes and
backslashes after a backslash, the usual control characters by their letters, and every other
hidden character by its code point, as in `\u{301}`.
-/

namespace FlagFanout

/-- The lower-case hexadecimal digits of a natural. -/
def hexDigits (n : Nat) : List Char := Nat.toDigits 16 n

/-- How a character stands between quotes. -/
def quotedChar (c : Char) : List Char :=
  match c with
  | '\x00' => ['\\', '0']
  | '\t' => ['\\', 't']
  | '\r' => ['\\', 'r']
  | '\n' => ['\\', 'n']
  | '"' => ['\\', '"']
  | '\\' => ['\\', '\\']
  | c =>
    if isHidden c then '\\' :: 'u' :: '\x7b' :: (hexDigits c.toNat ++ ['\x7d']) else [c]

/-- A text between double quotes. -/
def quoted (text : String) : String :=
  String.ofList ('"' :: (text.toList.flatMap quotedChar ++ ['"']))

end FlagFanout
