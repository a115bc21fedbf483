import FlagFanout.Number.Rounding

/-!
# Reading numbers from text

The digits of a number are collected into a `Scan`, an integer scaled by a power of ten, before
anything is rounded. `Binary64.ofText?` reads the free form used where numbers stand in strings:
a sign, digits with an optional point, an optional exponent, or one of the words for infinity and
NaN in any case.
-/

namespace FlagFanout

/-- The value of a decimal digit. -/
def digitValue (c : Char) : Nat := c.toNat - '0'.toNat

/-- The natural that a list of digits writes. -/
def naturalOf (ds : List Char) : Nat := ds.foldl (fun n d => 10 * n + digitValue d) 0

/-- The digits at the front of a text, and the rest. -/
def spanDigits (cs : List Char) : List Char × List Char :=
  (cs.takeWhile Char.isDigit, cs.dropWhile Char.isDigit)

/-- A leading sign, true for minus, and the rest. -/
def spanSign : List Char → Bool × List Char
  | '-' :: cs => (true, cs)
  | '+' :: cs => (false, cs)
  | cs => (false, cs)

namespace Binary64

/-- The number with the given digits before and after the point and the given exponent. -/
def ofDigits (negative : Bool) (whole fraction : List Char) (exponent : Int) : Binary64 :=
  ofDecimal negative (naturalOf (whole ++ fraction)) (exponent - fraction.length)

/-- The exponent that ends a number: nothing, or `e`, an optional sign and digits. -/
def exponentOf? : List Char → Option Int
  | [] => some 0
  | c :: cs =>
    if c = 'e' || c = 'E' then
      let (negative, ds) := spanSign cs
      if ds.isEmpty || !ds.all Char.isDigit then none
      else if negative then some (-(naturalOf ds : Int)) else some (naturalOf ds)
    else none

/-- The unsigned part of a number in text. -/
def ofUnsigned? (negative : Bool) (cs : List Char) : Option Binary64 :=
  let word := cs.map Char.toLower
  if word = "inf".toList || word = "infinity".toList then some (infinity negative)
  else if word = "nan".toList then some (nan negative)
  else
    let (whole, rest) := spanDigits cs
    let (fraction, rest) := match rest with
      | '.' :: rest => spanDigits rest
      | rest => ([], rest)
    if whole.isEmpty && fraction.isEmpty then none
    else (exponentOf? rest).map (ofDigits negative whole fraction)

/-- A number from the whole of a text. -/
def ofText? (text : String) : Option Binary64 :=
  let (negative, cs) := spanSign text.toList
  ofUnsigned? negative cs

end Binary64

end FlagFanout
