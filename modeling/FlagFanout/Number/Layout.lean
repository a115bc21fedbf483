import FlagFanout.Number.Shortest

/-!
# Writing numbers

A `Layout` says how the digits of a number are set out: between which powers of ten it is written
positionally, whether an integer keeps a point, and which way a tie between two shortest
decimals goes. Everything else is written with an exponent, as in `1.5e-7`.
-/

namespace FlagFanout

/-- How the digits of a number are set out. -/
structure Layout where
  /-- Which of two equally near shortest decimals is written. -/
  tie : Tie
  /-- The powers of ten of the first digit that are written positionally; all if absent. -/
  positional : Option (Int × Int)
  /-- Whether a positional integer is written with `.0`. -/
  point : Bool

namespace Layout

/-- The decimal digits of a natural. -/
def digitsOf (n : Nat) : List Char := Nat.toDigits 10 n

/-- The digits without the zeros at their end. -/
def trimZeros (ds : List Char) : List Char := (ds.reverse.dropWhile (· = '0')).reverse

/-- An integer in decimal. -/
def ofInt (i : Int) : String :=
  String.ofList (if i < 0 then '-' :: digitsOf i.natAbs else digitsOf i.natAbs)

/-- Digits with the first one at the power of ten `e`, without an exponent. -/
def positionally (l : Layout) (ds : List Char) (e : Int) : List Char :=
  if e < 0 then '0' :: '.' :: (List.replicate (-e - 1).toNat '0' ++ ds)
  else
    let whole := e.toNat + 1
    let int := ds.take whole ++ List.replicate (whole - ds.length) '0'
    match ds.drop whole with
    | [] => if l.point then int ++ ['.', '0'] else int
    | frac => int ++ '.' :: frac

/-- Digits with the first one at the power of ten `e`, one before the point and the exponent with
its sign. -/
def scientifically (ds : List Char) (e : Int) : List Char :=
  let mantissa := match ds with
    | d :: r@(_ :: _) => d :: '.' :: r
    | _ => ds
  mantissa ++ 'e' :: (if e < 0 then '-' else '+') :: digitsOf e.natAbs

/-- A finite number other than zero from its shortest decimal. -/
def ofDecimal (l : Layout) (d : Decimal) : List Char :=
  let all := digitsOf d.digits
  let ds := trimZeros all
  let e := d.exponent + all.length - 1
  match l.positional with
  | none => l.positionally ds e
  | some (least, greatest) =>
    if least ≤ e && e ≤ greatest then l.positionally ds e else scientifically ds e

/-- A number written in this layout. -/
def write (l : Layout) (x : Binary64) : String :=
  if x.isNaN then "NaN"
  else
    let body :=
      if x.isZero then l.positionally ['0'] 0
      else if x.isFinite then l.ofDecimal (x.shortest l.tie)
      else "inf".toList
    String.ofList (if x.isNegative then '-' :: body else body)

end Layout

end FlagFanout
