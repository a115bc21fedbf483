/-!
# Binary floating-point numbers of 64 bits

`Binary64` is a word of 64 bits read as an IEEE double: one sign bit, eleven exponent bits and
52 fraction bits. Numbers are compared through `rank`, the place of a number on the line, which
identifies the two zeros; a NaN has no place and compares equal to nothing, itself included.

A finite number is `significand * 2 ^ scale`, up to its sign.
-/

namespace FlagFanout

/-- A double, given by its bits. -/
structure Binary64 where
  bits : UInt64
  deriving DecidableEq, Inhabited

namespace Binary64

/-! ## The three fields -/

/-- The weight of the sign bit, `2 ^ 63`. -/
def signWeight : Nat := 0x8000000000000000

/-- The weight of the lowest exponent bit, `2 ^ 52`. -/
def exponentWeight : Nat := 0x10000000000000

/-- Whether the sign bit is set. -/
def isNegative (x : Binary64) : Bool := signWeight ≤ x.bits.toNat

/-- The bits below the sign. -/
def magnitudeBits (x : Binary64) : Nat := x.bits.toNat % signWeight

/-- The eleven exponent bits. -/
def exponentField (x : Binary64) : Nat := x.magnitudeBits / exponentWeight

/-- The 52 fraction bits. -/
def fractionField (x : Binary64) : Nat := x.magnitudeBits % exponentWeight

/-! ## Kinds of numbers -/

/-- The bits of positive infinity: all exponent bits and no fraction bit. -/
def infinityBits : Nat := 2047 * exponentWeight

/-- All exponent bits and some fraction bit. -/
def isNaN (x : Binary64) : Bool := infinityBits < x.magnitudeBits

/-- Neither infinite nor a NaN. -/
def isFinite (x : Binary64) : Bool := x.magnitudeBits < infinityBits

/-- One of the two zeros. -/
def isZero (x : Binary64) : Bool := x.magnitudeBits = 0

/-! ## Values -/

/-- A double from its sign and the bits below it. -/
def ofMagnitude (negative : Bool) (magnitude : Nat) : Binary64 :=
  ⟨UInt64.ofNat (if negative then signWeight + magnitude else magnitude)⟩

/-- The zero of the given sign. -/
def zero (negative : Bool) : Binary64 := ofMagnitude negative 0

/-- The infinity of the given sign. -/
def infinity (negative : Bool) : Binary64 := ofMagnitude negative infinityBits

/-- A quiet NaN of the given sign. -/
def nan (negative : Bool) : Binary64 := ofMagnitude negative (infinityBits + exponentWeight / 2)

/-- The integer factor of a finite number: below `2 ^ 52` only for subnormal numbers. -/
def significand (x : Binary64) : Nat :=
  if x.exponentField = 0 then x.fractionField else exponentWeight + x.fractionField

/-- The power of two by which the significand of a finite number is scaled. -/
def scale (x : Binary64) : Int :=
  if x.exponentField = 0 then -1074 else x.exponentField - 1075

/-! ## Comparison -/

/-- The place of a number on the line; both zeros stand at 0. -/
def rank (x : Binary64) : Int :=
  if x.isNegative then -(x.magnitudeBits : Int) else x.magnitudeBits

/-- Numeric equality: the two zeros are equal and a NaN equals nothing. -/
protected def beq (x y : Binary64) : Bool := !x.isNaN && !y.isNaN && x.rank == y.rank

instance : BEq Binary64 := ⟨Binary64.beq⟩

/-- Numeric order: false as soon as one side is a NaN. -/
protected def lt (x y : Binary64) : Bool := !x.isNaN && !y.isNaN && decide (x.rank < y.rank)

/-- The number with the zeros made one: a negative zero becomes the positive one. -/
def mergeZeros (x : Binary64) : Binary64 := if x.isZero then zero false else x

end Binary64

end FlagFanout
