/-!
# The 64-bit keyed hash SipHash-1-3

The state has four words. The bytes are taken eight at a time as little-endian words, one round
each; the zero to seven bytes left over share the last word with the length. Three more rounds close
the hash. Who does not know the key cannot prepare two sequences with one hash.
-/

namespace FlagFanout.SipHash

/-- The secret a hash is taken under. -/
structure Key where
  /-- The low half. -/
  low : UInt64
  /-- The high half. -/
  high : UInt64
  deriving DecidableEq, Repr

/-- The four words that are stirred. -/
structure State where
  /-- The first word. -/
  a : UInt64
  /-- The second word. -/
  b : UInt64
  /-- The third word. -/
  c : UInt64
  /-- The fourth word. -/
  d : UInt64
  deriving DecidableEq, Repr

/-- The state before the first word. -/
def start (key : Key) : State :=
  ⟨key.low ^^^ 0x736f6d6570736575, key.high ^^^ 0x646f72616e646f6d,
    key.low ^^^ 0x6c7967656e657261, key.high ^^^ 0x7465646279746573⟩

/-- The bits of a word turned to the left. -/
def rotate (x n : UInt64) : UInt64 := (x <<< n) ||| (x >>> (64 - n))

/-- One round over the state. -/
def round (s : State) : State :=
  let a := s.a + s.b
  let b := rotate s.b 13 ^^^ a
  let c := s.c + s.d
  let d := rotate s.d 16 ^^^ c
  let a := rotate a 32 + d
  let d := rotate d 21 ^^^ a
  let c := c + b
  let b := rotate b 17 ^^^ c
  ⟨a, b, rotate c 32, d⟩

/-- The state after one more word. -/
def absorbWord (s : State) (w : UInt64) : State :=
  let t := round { s with d := s.d ^^^ w }
  { t with a := t.a ^^^ w }

/-- The little-endian word of up to eight bytes. -/
def word (bytes : List UInt8) : UInt64 :=
  bytes.foldr (fun b w => (w <<< 8) ||| b.toUInt64) 0

/-- The state after all bytes, of which the last word carries the length `n`. -/
def absorb (n : Nat) (s : State) : List UInt8 → State
  | a :: b :: c :: d :: e :: f :: g :: h :: rest =>
    absorb n (absorbWord s (word [a, b, c, d, e, f, g, h])) rest
  | rest => absorbWord s (word rest ||| (UInt64.ofNat n <<< 56))

/-- The hash that a state closes with. -/
def finish (s : State) : UInt64 :=
  let t := round (round (round { s with c := s.c ^^^ 0xff }))
  t.a ^^^ t.b ^^^ t.c ^^^ t.d

/-- The hash of a sequence of bytes under a key. -/
def hash (key : Key) (bytes : List UInt8) : UInt64 :=
  finish (absorb bytes.length (start key) bytes)

/-- A key drawn from a sequence of bytes, its halves independent of each other. -/
def Key.ofBytes (bytes : List UInt8) : Key := ⟨hash ⟨0, 0⟩ bytes, hash ⟨1, 0⟩ bytes⟩

end FlagFanout.SipHash
