import FlagFanout.Json.Reader

/-!
# Strings and blanks in TOML

TOML has four kinds of strings: basic ones with escapes and literal ones without, each on one line
or, between three quotes, over several. A line break in a string is a line feed, however it is
written; the first one after three quotes does not count. Readers take the characters that are left
and give `none` where the text is refused.
-/

namespace FlagFanout.Toml

/-- Blanks within a line. -/
def isBlank (c : Char) : Bool := c = ' ' || c = '\t'

/-- The text without the blanks at its front. -/
def skipBlanks (cs : List Char) : List Char := cs.dropWhile isBlank

/-- Characters that may stand in strings and comments: no control characters but the tab. -/
def isPlain (c : Char) : Bool := c = '\t' || (0x20 ≤ c.toNat && c.toNat ≠ 0x7F)

/-- What follows a line break. -/
def lineBreak? : List Char → Option (List Char)
  | '\n' :: rest => some rest
  | '\r' :: '\n' :: rest => some rest
  | _ => none

/-- The text from the end of the comment in which it starts. -/
def skipComment (cs : List Char) : List Char := cs.dropWhile isPlain

/-- The text after the end of a line: blanks and a comment may come first. -/
def endLine? (cs : List Char) : Option (List Char) :=
  let rest := match skipBlanks cs with
    | '#' :: rest => skipComment rest
    | rest => rest
  if rest.isEmpty then some [] else lineBreak? rest

/-- The text without blanks, line breaks and comments at its front. -/
def skipFiller (comment : Bool) : List Char → Option (List Char)
  | [] => some []
  | '\n' :: rest => skipFiller false rest
  | '\r' :: rest => if rest.head? = some '\n' then skipFiller false rest else none
  | c :: rest =>
    if comment then if isPlain c then skipFiller true rest else none
    else if isBlank c then skipFiller false rest
    else if c = '#' then skipFiller true rest
    else some (c :: rest)

/-! ## Strings -/

/-- What a letter after a backslash stands for. -/
def escapeOf? (c : Char) : Option Char :=
  match c with
  | 'b' => some '\x08'
  | 't' => some '\t'
  | 'n' => some '\n'
  | 'f' => some '\x0c'
  | 'r' => some '\r'
  | '"' => some '"'
  | '\\' => some '\\'
  | _ => none

/-- The number of hexadecimal digits that a letter after a backslash asks for. -/
def unitLength? (c : Char) : Option Nat :=
  if c = 'u' then some 4 else if c = 'U' then some 8 else none

/-- The character of a code point, surrogates excepted. -/
def charOf? (n : Nat) : Option Char :=
  if n < 0xD800 || (0xE000 ≤ n && n < 0x110000) then some (Char.ofNat n) else none

/-- What the reader of a basic string is in the middle of. -/
inductive Within where
  | plain
  | escape
  /-- The digits of a code point: how many are left, and the value so far. -/
  | unit (left value : Nat)
  /-- Between a backslash at the end of a line and the line break. -/
  | gap
  /-- Behind that line break, where blanks and further line breaks are skipped. -/
  | fold

/-- The state after a backslash and a letter, and what the letter stands for. -/
def afterEscape? (long : Bool) (c : Char) : Option (Option Char × Within) :=
  match escapeOf? c, unitLength? c with
  | some d, _ => some (some d, .plain)
  | none, some n => some (none, .unit n 0)
  | none, none =>
    if !long then none
    else if c = '\n' then some (none, .fold)
    else if isBlank c || c = '\r' then some (none, .gap)
    else none

/-- The state after one more digit of a code point, and the character that it ends. -/
def afterDigit? (left value : Nat) (c : Char) : Option (Option Char × Within) :=
  match Json.hexValue? c with
  | none => none
  | some d =>
    if 1 < left then some (none, .unit (left - 1) (16 * value + d))
    else (charOf? (16 * value + d)).map fun c => (some c, .plain)

/-- The text of a list of characters that was read back to front. -/
def textOf (read : List Char) : String := String.ofList read.reverse

/-- The rest of a basic string on one line. -/
def readBasic : Within → List Char → List Char → Option (String × List Char)
  | _, _, [] => none
  | .plain, read, c :: rest =>
    if c = '"' then some (textOf read, rest)
    else if c = '\\' then readBasic .escape read rest
    else if isPlain c then readBasic .plain (c :: read) rest
    else none
  | .escape, read, c :: rest =>
    match afterEscape? false c with
    | none => none
    | some (d, state) => readBasic state (d.toList ++ read) rest
  | .unit left value, read, c :: rest =>
    match afterDigit? left value c with
    | none => none
    | some (d, state) => readBasic state (d.toList ++ read) rest
  | .gap, _, _ => none
  | .fold, _, _ => none

/-- The rest of a basic string over several lines. Up to two quotes may stand before the three that
end it. -/
def readLongBasic : Within → List Char → List Char → Option (String × List Char)
  | _, _, [] => none
  | .plain, read, '"' :: '"' :: '"' :: '"' :: '"' :: rest =>
    some (textOf ('"' :: '"' :: read), rest)
  | .plain, read, '"' :: '"' :: '"' :: '"' :: rest => some (textOf ('"' :: read), rest)
  | .plain, read, '"' :: '"' :: '"' :: rest => some (textOf read, rest)
  | .plain, read, '\r' :: rest =>
    if rest.head? = some '\n' then readLongBasic .plain read rest else none
  | .plain, read, c :: rest =>
    if c = '\\' then readLongBasic .escape read rest
    else if isPlain c || c = '\n' then readLongBasic .plain (c :: read) rest
    else none
  | .escape, read, c :: rest =>
    if c = '\r' && rest.head? ≠ some '\n' then none
    else
      match afterEscape? true c with
      | none => none
      | some (d, state) => readLongBasic state (d.toList ++ read) rest
  | .unit left value, read, c :: rest =>
    match afterDigit? left value c with
    | none => none
    | some (d, state) => readLongBasic state (d.toList ++ read) rest
  | .gap, read, c :: rest =>
    if c = '\n' then readLongBasic .fold read rest
    else if isBlank c || (c = '\r' && rest.head? = some '\n') then readLongBasic .gap read rest
    else none
  | .fold, read, '"' :: '"' :: '"' :: '"' :: '"' :: rest =>
    some (textOf ('"' :: '"' :: read), rest)
  | .fold, read, '"' :: '"' :: '"' :: '"' :: rest => some (textOf ('"' :: read), rest)
  | .fold, read, '"' :: '"' :: '"' :: rest => some (textOf read, rest)
  | .fold, read, c :: rest =>
    if isBlank c || c = '\n' then readLongBasic .fold read rest
    else if c = '\r' then if rest.head? = some '\n' then readLongBasic .fold read rest else none
    else if c = '\\' then readLongBasic .escape read rest
    else if isPlain c then readLongBasic .plain (c :: read) rest
    else none

/-- The rest of a literal string on one line. -/
def readLiteral : List Char → List Char → Option (String × List Char)
  | _, [] => none
  | read, c :: rest =>
    if c = '\'' then some (textOf read, rest)
    else if isPlain c then readLiteral (c :: read) rest
    else none

/-- The rest of a literal string over several lines. -/
def readLongLiteral : List Char → List Char → Option (String × List Char)
  | _, [] => none
  | read, '\'' :: '\'' :: '\'' :: '\'' :: '\'' :: rest => some (textOf ('\'' :: '\'' :: read), rest)
  | read, '\'' :: '\'' :: '\'' :: '\'' :: rest => some (textOf ('\'' :: read), rest)
  | read, '\'' :: '\'' :: '\'' :: rest => some (textOf read, rest)
  | read, '\r' :: rest => if rest.head? = some '\n' then readLongLiteral read rest else none
  | read, c :: rest => if isPlain c || c = '\n' then readLongLiteral (c :: read) rest else none

/-- The text without the line break at its front, if there is one. -/
def skipLineBreak (cs : List Char) : List Char := (lineBreak? cs).getD cs

/-- A string on one line, as it may also stand for a key. -/
def readShort? : List Char → Option (String × List Char)
  | '"' :: rest => readBasic .plain [] rest
  | '\'' :: rest => readLiteral [] rest
  | _ => none

/-- A string of any kind. -/
def readText? : List Char → Option (String × List Char)
  | '"' :: '"' :: '"' :: rest => readLongBasic .plain [] (skipLineBreak rest)
  | '\'' :: '\'' :: '\'' :: rest => readLongLiteral [] (skipLineBreak rest)
  | cs => readShort? cs

/-! ## Keys -/

/-- Characters of keys without quotes. -/
def isBare (c : Char) : Bool := c.isAlphanum || c = '_' || c = '-'

/-- One part of a key. -/
def readPart? (cs : List Char) : Option (String × List Char) :=
  let bare := cs.takeWhile isBare
  if bare.isEmpty then readShort? cs else some (String.ofList bare, cs.dropWhile isBare)

/-- The parts of a dotted key; there are no more than `bound`, the number of characters left. -/
def readParts? : Nat → List Char → Option (List String × List Char)
  | 0, _ => none
  | bound + 1, cs => do
    let (part, rest) ← readPart? (skipBlanks cs)
    match skipBlanks rest with
    | '.' :: rest =>
      let (parts, rest) ← readParts? bound rest
      return (part :: parts, rest)
    | rest => return ([part], rest)

/-- One more than the greatest depth to which values nest and keys are dotted. -/
def depthLimit : Nat := 80

/-- A key, as the path to its table and the last part, with the blanks around it. -/
def readKey? (cs : List Char) : Option ((List String × String) × List Char) := do
  let (parts, rest) ← readParts? cs.length cs
  if depthLimit ≤ parts.length then none
  else return ((parts.dropLast, ← parts.getLast?), rest)

end FlagFanout.Toml
