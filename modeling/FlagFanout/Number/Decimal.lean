/-!
# Decimal numbers

A decimal is a natural scaled by a power of ten. Its value is a quotient of naturals: a positive
exponent scales the numerator, a negative one the denominator.
-/

namespace FlagFanout

/-- The powers of ten. -/
def powerOfTen (k : Nat) : Nat := Nat.pow 10 k

/-- A natural scaled by a power of ten. -/
structure Decimal where
  digits : Nat
  exponent : Int
  deriving DecidableEq, Repr

end FlagFanout
