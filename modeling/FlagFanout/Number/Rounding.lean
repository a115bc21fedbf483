import FlagFanout.Number.Binary64
import FlagFanout.Number.Decimal

/-!
# Rounding exact quotients to doubles

A quotient of naturals is rounded to the nearest double, a tie going to the even significand
(`Binary64.ofRatio`); decimal text and integers are read through it, so every reading is correctly
rounded. Too large a value becomes an infinity, too small a one a zero.
-/

namespace FlagFanout

/-- The quotient rounded to the nearest natural, a tie going to the even one. -/
def roundQuotient (num den : Nat) : Nat :=
  let floor := num / den
  let rest := num % den
  if 2 * rest < den then floor
  else if den < 2 * rest then floor + 1
  else floor + floor % 2

namespace Binary64

/-- The quotient `num / den` over `2 ^ q`, as a numerator and a denominator. -/
def rescale (num den : Nat) (q : Int) : Nat × Nat :=
  if 0 ≤ q then (num, den <<< q.toNat) else (num <<< (-q).toNat, den)

/-- The power of two at which `num / den` has a significand of 53 bits, or the least one that
doubles have. -/
def scaleFor (num den : Nat) : Int :=
  let q : Int := (num.log2 : Int) - den.log2 - 52
  let (n, d) := rescale num den q
  max (if n < d * exponentWeight then q - 1 else q) (-1074)

/-- The double nearest to `num / den`, of the given sign. -/
def ofRatio (negative : Bool) (num den : Nat) : Binary64 :=
  if num = 0 then zero negative
  else
    let q := scaleFor num den
    let (n, d) := rescale num den q
    -- A carry out of the significand lands in the exponent field, where it belongs.
    ofMagnitude negative (min ((q + 1074).toNat * exponentWeight + roundQuotient n d)
      infinityBits)

/-- The double nearest to `digits * 10 ^ exponent`, of the given sign. -/
def ofDecimal (negative : Bool) (digits : Nat) (exponent : Int) : Binary64 :=
  if digits = 0 then zero negative
  -- Beyond these bounds the value is out of range whatever the digits are.
  else if 400 < exponent then infinity negative
  else if exponent < -(400 + digits.log2 : Int) then zero negative
  else if 0 ≤ exponent then ofRatio negative (digits * powerOfTen exponent.toNat) 1
  else ofRatio negative digits (powerOfTen (-exponent).toNat)

/-- The double nearest to an integer; the integer 0 is the positive zero. -/
def ofInt (i : Int) : Binary64 := ofRatio (i < 0) i.natAbs 1

end Binary64

end FlagFanout
