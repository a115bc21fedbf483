import FlagFanout.Number.Reading
import FlagFanout.Toml.Text
import FlagFanout.Toml.Value

/-!
# Numbers, dates and times in TOML

An integer fits into 64 bits with a sign; it may be written in hexadecimal, octal or binary. Digits
may be parted by single underscores. Dates and times are checked against the calendar and the
clock.
-/

namespace FlagFanout.Toml

/-- What follows a given character. -/
def after? (c : Char) : List Char → Option (List Char)
  | d :: rest => if c = d then some rest else none
  | [] => none

/-! ## Digits -/

/-- Digits that may be parted by single underscores, behind the first one. -/
def moreDigits (isDigit : Char → Bool) : List Char → List Char × List Char
  | '_' :: c :: rest =>
    if isDigit c then
      let (ds, rest) := moreDigits isDigit rest
      (c :: ds, rest)
    else ([], '_' :: c :: rest)
  | c :: rest =>
    if isDigit c then
      let (ds, rest) := moreDigits isDigit rest
      (c :: ds, rest)
    else ([], c :: rest)
  | [] => ([], [])

/-- At least one digit; single underscores may part them. -/
def readDigits? (isDigit : Char → Bool) : List Char → Option (List Char × List Char)
  | c :: rest =>
    if isDigit c then
      let (ds, rest) := moreDigits isDigit rest
      some (c :: ds, rest)
    else none
  | [] => none

/-- The digits of a decimal integer: a zero stands alone. -/
def readDecimal? : List Char → Option (List Char × List Char)
  | '0' :: rest => some (['0'], rest)
  | cs => readDigits? Char.isDigit cs

/-! ## Numbers -/

/-- Whether an integer fits into 64 bits with a sign. -/
def fits (i : Int) : Bool := (Int64.ofInt i).toInt = i

/-- The integer that digits write in a base. -/
def readBased? (base : Nat) (cs : List Char) : Option (Toml × List Char) := do
  let isDigit (c : Char) : Bool := (Json.hexValue? c).any (· < base)
  let (ds, rest) ← readDigits? isDigit cs
  let n := ds.foldl (fun n d => base * n + (Json.hexValue? d).getD 0) 0
  if fits n then return (int n, rest) else none

/-- An integer. -/
def readInt? : List Char → Option (Toml × List Char)
  | '0' :: 'x' :: rest => readBased? 16 rest
  | '0' :: 'o' :: rest => readBased? 8 rest
  | '0' :: 'b' :: rest => readBased? 2 rest
  | cs => do
    let (negative, rest) := spanSign cs
    let (ds, rest) ← readDecimal? rest
    let i : Int := if negative then -(naturalOf ds : Int) else naturalOf ds
    if fits i then return (int i, rest) else none

/-- The digits after a point. -/
def readFraction? (cs : List Char) : Option (List Char × List Char) :=
  (after? '.' cs).bind (readDigits? Char.isDigit)

/-- An exponent. -/
def readExponent? : List Char → Option (Int × List Char)
  | c :: rest =>
    if c = 'e' || c = 'E' then do
      let (negative, rest) := spanSign rest
      let (ds, rest) ← readDigits? Char.isDigit rest
      return (if negative then -(naturalOf ds : Int) else naturalOf ds, rest)
    else none
  | [] => none

/-- Infinity or NaN. -/
def readSpecial? (negative : Bool) : List Char → Option (Toml × List Char)
  | 'i' :: 'n' :: 'f' :: rest => some (float (.infinity negative), rest)
  | 'n' :: 'a' :: 'n' :: rest => some (float (.nan negative), rest)
  | _ => none

/-- A number with a fraction, an exponent or both. One too large is refused. -/
def readFloat? (cs : List Char) : Option (Toml × List Char) := do
  let (negative, cs) := spanSign cs
  match readSpecial? negative cs with
  | some r => return r
  | none =>
    let (whole, rest) ← readDecimal? cs
    let fraction := readFraction? rest
    let rest := fraction.elim rest (·.2)
    let exponent := readExponent? rest
    let rest := exponent.elim rest (·.2)
    if fraction.isNone && exponent.isNone then none
    else
      let x := Binary64.ofDigits negative whole (fraction.elim [] (·.1)) (exponent.elim 0 (·.1))
      if x = .infinity false then none else return (float x, rest)

/-! ## Dates and times -/

/-- A number of exactly `n` digits. -/
def readFixed? (n : Nat) (cs : List Char) : Option (Nat × List Char) :=
  let ds := cs.take n
  if ds.length = n && ds.all Char.isDigit then some (naturalOf ds, cs.drop n) else none

/-- The number of days of a month. -/
def daysIn (year month : Nat) : Nat :=
  if month = 2 then
    if year % 4 = 0 && (year % 100 ≠ 0 || year % 400 = 0) then 29 else 28
  else if month = 4 || month = 6 || month = 9 || month = 11 then 30
  else 31

/-- The text after a date. -/
def skipDate? (cs : List Char) : Option (List Char) := do
  let (year, rest) ← readFixed? 4 cs
  let (month, rest) ← readFixed? 2 (← after? '-' rest)
  let (day, rest) ← readFixed? 2 (← after? '-' rest)
  if 1 ≤ month && month ≤ 12 && 1 ≤ day && day ≤ daysIn year month then return rest else none

/-- The text after an hour and a minute. -/
def skipClock? (cs : List Char) : Option (List Char) := do
  let (hour, rest) ← readFixed? 2 cs
  let (minute, rest) ← readFixed? 2 (← after? ':' rest)
  if hour ≤ 23 && minute ≤ 59 then return rest else none

/-- The text after a time of day; the minute may have a leap second. -/
def skipTime? (cs : List Char) : Option (List Char) := do
  let rest ← skipClock? cs
  let (second, rest) ← readFixed? 2 (← after? ':' rest)
  if 60 < second then none
  else
    match rest with
    | '.' :: d :: more => if d.isDigit then return more.dropWhile Char.isDigit else return rest
    | _ => return rest

/-- The text after the offset of a time from universal time, if there is one. -/
def skipOffset (cs : List Char) : List Char :=
  match cs with
  | c :: rest =>
    if c = 'Z' || c = 'z' then rest
    else if c = '+' || c = '-' then (skipClock? rest).getD cs
    else cs
  | [] => []

/-- The text after the time that follows a date, if one does. -/
def skipTimeOfDate (cs : List Char) : List Char :=
  match cs with
  | c :: rest =>
    if c = 'T' || c = 't' || c = ' ' then (skipTime? rest).elim cs skipOffset else cs
  | [] => []

/-- A date, a time or both. -/
def readMoment? (cs : List Char) : Option (Toml × List Char) :=
  (((skipDate? cs).map skipTimeOfDate).or (skipTime? cs)).map (moment, ·)

/-! ## Scalars -/

/-- A value that is neither an array nor a table. -/
def readScalar? (cs : List Char) : Option (Toml × List Char) :=
  match cs with
  | [] => none
  | c :: rest =>
    if c = '"' || c = '\'' then (readText? cs).map fun (s, rest) => (text s, rest)
    else if c = 't' then (Json.expect "rue".toList rest).toOption.map (bool true, ·)
    else if c = 'f' then (Json.expect "alse".toList rest).toOption.map (bool false, ·)
    else ((readMoment? cs).or (readFloat? cs)).or (readInt? cs)

end FlagFanout.Toml
