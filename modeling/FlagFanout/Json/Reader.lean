import FlagFanout.Json.Value
import FlagFanout.Number.Reading

/-!
# Reading JSON

`Json.ofText` reads a whole text as one value. A reader takes the characters that are left and
gives back what it read together with the rest; it fails with `Fault.ended` where the text stops
too early and with `Fault.malformed` where no continuation could be right. Containers nest at most
127 deep.
-/

namespace FlagFanout

namespace Json

/-- Why a text is not JSON. -/
inductive Fault where
  /-- The text stopped in the middle of a value. -/
  | ended
  /-- What stands there cannot belong to a value, or a number is too large. -/
  | malformed
  deriving DecidableEq, Repr

/-- The fault of a place where something else was needed: it matters whether anything is left. -/
def faultAt (rest : List Char) : Fault := if rest.isEmpty then .ended else .malformed

/-- The text without the blanks at its front. -/
def skipBlanks (cs : List Char) : List Char :=
  cs.dropWhile fun c => c = ' ' || c = '\n' || c = '\t' || c = '\r'

/-- What follows a given word. -/
def expect : List Char → List Char → Except Fault (List Char)
  | [], rest => .ok rest
  | _ :: _, [] => .error .ended
  | c :: word, d :: rest => if c = d then expect word rest else .error .malformed

/-! ## Strings -/

/-- The value of a hexadecimal digit. -/
def hexValue? (c : Char) : Option Nat :=
  if c.isDigit then some (c.toNat - '0'.toNat)
  else if 'a' ≤ c && c ≤ 'f' then some (c.toNat - 'a'.toNat + 10)
  else if 'A' ≤ c && c ≤ 'F' then some (c.toNat - 'A'.toNat + 10)
  else none

/-- What a letter after a backslash stands for. -/
def escapeOf? (c : Char) : Option Char :=
  match c with
  | '"' => some '"'
  | '\\' => some '\\'
  | '/' => some '/'
  | 'b' => some '\x08'
  | 'f' => some '\x0c'
  | 'n' => some '\n'
  | 'r' => some '\r'
  | 't' => some '\t'
  | _ => none

/-- What the reader of a string is in the middle of. -/
inductive Within where
  | plain
  | escape
  /-- The hexadecimal digits of a code unit: how many are left, the value so far, and the leading
  surrogate before it. -/
  | unit (left value : Nat) (lead : Option Nat)
  /-- Between a leading surrogate and the backslash of the trailing one. -/
  | leadSeen (lead : Nat)
  /-- Between that backslash and its letter. -/
  | leadEscape (lead : Nat)

/-- The state after `\u`, if at least four bytes are left for the digits. -/
def unitState (lead : Option Nat) (rest : List Char) : Except Fault Within :=
  if (String.ofList (rest.take 4)).utf8ByteSize < 4 then .error .ended else .ok (.unit 4 0 lead)

/-- The character that ends with the code unit `value`, or the state that waits for its second
half. Surrogates stand in pairs only. -/
def closeUnit (value : Nat) (lead : Option Nat) : Except Fault (Option Char × Within) :=
  let trailing := 0xDC00 ≤ value && value ≤ 0xDFFF
  match lead with
  | some high =>
    if trailing then
      .ok (some (Char.ofNat ((high - 0xD800) * 0x400 + (value - 0xDC00) + 0x10000)), .plain)
    else .error .malformed
  | none =>
    if trailing then .error .malformed
    else if 0xD800 ≤ value && value ≤ 0xDBFF then .ok (none, .leadSeen value)
    else .ok (some (Char.ofNat value), .plain)

/-- The rest of a string from inside, up to and without its closing quote. -/
def readString : Within → List Char → List Char → Except Fault (String × List Char)
  | _, _, [] => .error .ended
  | .plain, read, c :: rest =>
    if c = '"' then .ok (String.ofList read.reverse, rest)
    else if c = '\\' then readString .escape read rest
    else if c.toNat < 0x20 then .error .malformed
    else readString .plain (c :: read) rest
  | .escape, read, c :: rest =>
    if c = 'u' then do readString (← unitState none rest) read rest
    else match escapeOf? c with
      | some d => readString .plain (d :: read) rest
      | none => .error .malformed
  | .unit left value lead, read, c :: rest =>
    match hexValue? c with
    | none => .error .malformed
    | some d =>
      if 1 < left then readString (.unit (left - 1) (16 * value + d) lead) read rest
      else do
        let (char, state) ← closeUnit (16 * value + d) lead
        readString state (char.toList ++ read) rest
  | .leadSeen lead, read, c :: rest =>
    if c = '\\' then readString (.leadEscape lead) read rest else .error .malformed
  | .leadEscape lead, read, c :: rest =>
    if c = 'u' then do readString (← unitState (some lead) rest) read rest else .error .malformed

/-! ## Numbers -/

/-- A double that a token writes; one beyond the range of doubles is refused. -/
def ofDouble (x : Binary64) : Except Fault Json :=
  if x.isFinite then .ok (float x) else .error .malformed

/-- An integer token: an integer if it fits into 64 bits, signed or unsigned, else a double. The
token `-0` is the negative zero. -/
def ofIntegerToken (negative : Bool) (digits : List Char) : Except Fault Json :=
  let n := naturalOf digits
  if negative then
    let i : Int := -n
    if n ≠ 0 && (Int64.ofInt i).toInt = i then .ok (int i)
    else ofDouble (Binary64.ofDecimal true n 0)
  else if n < UInt64.size then .ok (int n)
  else ofDouble (Binary64.ofDecimal false n 0)

/-- The digits after a point, if there is one. -/
def readFraction : List Char → Except Fault (Option (List Char) × List Char)
  | '.' :: rest =>
    let (digits, rest) := spanDigits rest
    if digits.isEmpty then .error (faultAt rest) else .ok (some digits, rest)
  | rest => .ok (none, rest)

/-- The exponent, if there is one. -/
def readExponent : List Char → Except Fault (Option Int × List Char)
  | c :: rest =>
    if c = 'e' || c = 'E' then
      let (negative, rest) := spanSign rest
      let (digits, rest) := spanDigits rest
      if digits.isEmpty then .error (faultAt rest)
      else .ok (some (if negative then -(naturalOf digits : Int) else naturalOf digits), rest)
    else .ok (none, c :: rest)
  | [] => .ok (none, [])

/-- The unsigned part of a number. Two digits never start with a zero, and a number beyond the
range of doubles is refused. -/
def readUnsigned (negative : Bool) (cs : List Char) : Except Fault (Json × List Char) := do
  let (whole, rest) := spanDigits cs
  if whole.isEmpty then .error (faultAt rest)
  else if whole.head? = some '0' && 1 < whole.length then .error .malformed
  else
    let (fraction, rest) ← readFraction rest
    let (exponent, rest) ← readExponent rest
    let value ←
      if fraction.isNone && exponent.isNone then ofIntegerToken negative whole
      else ofDouble (Binary64.ofDigits negative whole (fraction.getD []) (exponent.getD 0))
    return (value, rest)

/-- A number that starts with a digit or a minus. -/
def readNumber : List Char → Except Fault (Json × List Char)
  | '-' :: rest => readUnsigned true rest
  | rest => readUnsigned false rest

/-! ## Containers -/

/-- A series of items with commas between them up to the character `close`, from its first item
on. Each item takes at least one character, so a series has no more items than `bound`, the
number of characters left. -/
def readSeries {α : Type} (close : Char) (item : List Char → Except Fault (α × List Char)) :
    Nat → List Char → Except Fault (List α × List Char)
  | 0, _ => .error .malformed
  | bound + 1, cs => do
    let (a, rest) ← item cs
    match skipBlanks rest with
    | [] => .error .ended
    | c :: rest =>
      if c = close then return ([a], rest)
      else if c = ',' then
        let (as, rest) ← readSeries close item bound rest
        return (a :: as, rest)
      else .error .malformed

/-- What stands between an opening bracket, already read, and `close`. -/
def readEnclosed {α : Type} (close : Char) (item : List Char → Except Fault (α × List Char))
    (cs : List Char) : Except Fault (List α × List Char) :=
  match skipBlanks cs with
  | [] => .error .ended
  | c :: rest => if c = close then .ok ([], rest) else readSeries close item cs.length (c :: rest)

/-- A member of an object: a string, a colon and a value. -/
def readMember (value : List Char → Except Fault (Json × List Char)) (cs : List Char) :
    Except Fault ((String × Json) × List Char) := do
  match skipBlanks cs with
  | '"' :: rest =>
    let (key, rest) ← readString .plain [] rest
    match skipBlanks rest with
    | ':' :: rest =>
      let (v, rest) ← value rest
      return ((key, v), rest)
    | rest => .error (faultAt rest)
  | rest => .error (faultAt rest)

/-- A value within which containers nest less than `depth` deep. -/
def readValue : Nat → List Char → Except Fault (Json × List Char)
  | 0, _ => .error .malformed
  | depth + 1, cs =>
    match skipBlanks cs with
    | [] => .error .ended
    | c :: rest =>
      if c = 'n' then (expect "ull".toList rest).map (null, ·)
      else if c = 't' then (expect "rue".toList rest).map (bool true, ·)
      else if c = 'f' then (expect "alse".toList rest).map (bool false, ·)
      else if c = '"' then (readString .plain [] rest).map fun (s, rest) => (str s, rest)
      else if c = '[' then
        if depth = 0 then .error .malformed
        else (readEnclosed ']' (readValue depth) rest).map fun (items, rest) => (arr items, rest)
      else if c = '\x7b' then
        if depth = 0 then .error .malformed
        else (readEnclosed '\x7d' (readMember (readValue depth)) rest).map
          fun (members, rest) => (obj members, rest)
      else if c = '-' || c.isDigit then readNumber (c :: rest)
      else .error .malformed

/-- One more than the greatest depth to which containers nest. -/
def depthLimit : Nat := 128

/-- The value that a whole text writes. -/
def ofText (text : String) : Except Fault Json := do
  let (value, rest) ← readValue depthLimit text.toList
  if (skipBlanks rest).isEmpty then return value else .error .malformed

end Json

end FlagFanout
