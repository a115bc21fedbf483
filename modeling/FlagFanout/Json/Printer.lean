import FlagFanout.Json.Value
import FlagFanout.Number.Layout

/-!
# Writing JSON compactly

`Json.compact` writes a value without any blank, members in the order in which they stand. Strings
escape quotes, backslashes and the 32 control characters, and nothing else.
-/

namespace FlagFanout

/-- Numbers on the wire: positional from `0.00001` to below `10 ^ 16`, always with a point; a tie
goes to the even digit. -/
def Layout.wire : Layout := ⟨.even, some (-5, 15), true⟩

namespace Json

/-- How a character stands inside a string. -/
def escapedChar (c : Char) : List Char :=
  match c with
  | '"' => ['\\', '"']
  | '\\' => ['\\', '\\']
  | '\x08' => ['\\', 'b']
  | '\x0c' => ['\\', 'f']
  | '\n' => ['\\', 'n']
  | '\r' => ['\\', 'r']
  | '\t' => ['\\', 't']
  | c =>
    if c.toNat < 0x20 then
      ['\\', 'u', '0', '0', Nat.digitChar (c.toNat / 16), Nat.digitChar (c.toNat % 16)]
    else [c]

/-- A string between quotes. -/
def escaped (s : String) : String :=
  String.ofList ('"' :: (s.toList.flatMap escapedChar ++ ['"']))

mutual

/-- A value without blanks. -/
def compact : Json → String
  | null => "null"
  | bool true => "true"
  | bool false => "false"
  | int i => Layout.ofInt i
  | float x => Layout.wire.write x
  | str s => escaped s
  | arr [] => "[]"
  | arr (item :: items) => "[" ++ compact item ++ compactItems items ++ "]"
  | obj [] => "\x7b\x7d"
  | obj ((key, value) :: members) =>
    "\x7b" ++ escaped key ++ ":" ++ compact value ++ compactMembers members ++ "\x7d"

/-- The items after the first one, each after a comma. -/
def compactItems : List Json → String
  | [] => ""
  | item :: items => "," ++ compact item ++ compactItems items

/-- The members after the first one, each after a comma. -/
def compactMembers : List (String × Json) → String
  | [] => ""
  | (key, value) :: members =>
    "," ++ escaped key ++ ":" ++ compact value ++ compactMembers members

end

end Json

end FlagFanout
