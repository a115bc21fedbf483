import FlagFanout.Number.Binary64
import FlagFanout.Number.Decimal

/-!
# The shortest decimal that reads back

Every finite double has an interval of reals that round to it. `Binary64.shortest` gives the
decimal with the fewest digits in that interval and, of those, the nearest to the double. On the
grid of multiples of `10 ^ k` only the two neighbours of the value matter: if any point of the
grid lies in the interval, one of them does.
-/

namespace FlagFanout

/-- Which neighbour a value exactly between two points of a grid goes to. -/
inductive Tie where
  | even
  | up
  deriving DecidableEq, Repr

namespace Binary64

/-- The reals that round to a double, between `low / unit` and `high / unit` around
`value / unit`; the ends belong to the interval if `closed`. -/
structure Interval where
  low : Nat
  value : Nat
  high : Nat
  unit : Nat
  closed : Bool

/-- The interval of a finite double other than zero, its sign apart. The lower neighbour of a
power of two is only half as far as the upper one. -/
def interval (x : Binary64) : Interval :=
  let m := x.significand
  let q := x.scale - 2
  let up := 1 <<< q.toNat
  let gap := if m = exponentWeight ∧ -1074 < x.scale then 1 else 2
  { low := (4 * m - gap) * up
    value := 4 * m * up
    high := (4 * m + 2) * up
    unit := 1 <<< (-q).toNat
    closed := m % 2 = 0 }

namespace Interval

/-- `c * 10 ^ k` and `n / unit` over a common denominator. -/
def align (i : Interval) (c : Nat) (k : Int) (n : Nat) : Nat × Nat :=
  (c * powerOfTen k.toNat * i.unit, n * powerOfTen (-k).toNat)

/-- Whether `c * 10 ^ k` lies in the interval. -/
def holds (i : Interval) (c : Nat) (k : Int) : Bool :=
  let (p, low) := i.align c k i.low
  let (_, high) := i.align c k i.high
  if i.closed then low ≤ p && p ≤ high else low < p && p < high

/-- The greatest multiple of `10 ^ k` not above the value. -/
def floorAt (i : Interval) (k : Int) : Nat :=
  (i.value * powerOfTen (-k).toNat) / (powerOfTen k.toNat * i.unit)

/-- The power of ten of the value's first digit. -/
def firstExponent (i : Interval) : Int :=
  let log : Int := (i.value.log2 : Int) - i.unit.log2
  let guess := log * 30103 / 100000 - 1
  -- The guess is at most three too low.
  ([3, 2, 1].map fun (j : Nat) => guess + j).find? (fun k => 0 < i.floorAt k) |>.getD guess

/-- The point of the grid of `10 ^ k` that lies in the interval, the nearer one if two do. -/
def pick (i : Interval) (tie : Tie) (k : Int) : Option Decimal :=
  let a := i.floorAt k
  match i.holds a k, i.holds (a + 1) k with
  | true, false => some ⟨a, k⟩
  | false, true => some ⟨a + 1, k⟩
  | false, false => none
  | true, true =>
    let (middle, value) := i.align (2 * a + 1) k (2 * i.value)
    if value < middle then some ⟨a, k⟩
    else if middle < value then some ⟨a + 1, k⟩
    else
      match tie with
      | .even => some ⟨a + a % 2, k⟩
      | .up => some ⟨a + 1, k⟩

end Interval

/-- The decimal with the fewest digits that reads back as the given finite double, its sign
apart; zero is `0`. Seventeen digits always suffice. -/
def shortest (tie : Tie) (x : Binary64) : Decimal :=
  if x.isZero then ⟨0, 0⟩
  else
    let i := x.interval
    let first := i.firstExponent
    let grids := (List.range 17).map fun (n : Nat) => first - n
    (grids.findSome? (i.pick tie)).getD ⟨i.floorAt (first - 16), first - 16⟩

end Binary64

end FlagFanout
