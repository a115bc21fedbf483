/-!
# The 32-bit hash Murmur3

The bytes are taken four at a time as little-endian words; the one to three bytes left over form
a last, shorter word; the length and a final avalanche close the hash.
-/

namespace FlagFanout.Murmur3

/-- The bits of a word turned to the left. -/
def rotate (x n : UInt32) : UInt32 := (x <<< n) ||| (x >>> (32 - n))

/-- A word of the input before it meets the state. -/
def scramble (k : UInt32) : UInt32 := rotate (k * 0xcc9e2d51) 15 * 0x1b873593

/-- The little-endian word of up to four bytes. -/
def word (bytes : List UInt8) : UInt32 :=
  bytes.foldr (fun b w => (w <<< 8) ||| b.toUInt32) 0

/-- The state after all words of the input. -/
def absorb (state : UInt32) : List UInt8 → UInt32
  | a :: b :: c :: d :: rest =>
    absorb (rotate (state ^^^ scramble (word [a, b, c, d])) 13 * 5 + 0xe6546b64) rest
  | [] => state
  | rest => state ^^^ scramble (word rest)

/-- The final avalanche. -/
def finish (h : UInt32) : UInt32 :=
  let h := (h ^^^ (h >>> 16)) * 0x85ebca6b
  let h := (h ^^^ (h >>> 13)) * 0xc2b2ae35
  h ^^^ (h >>> 16)

/-- The hash of a sequence of bytes under a seed. -/
def hash (seed : UInt32) (bytes : List UInt8) : UInt32 :=
  finish (absorb seed bytes ^^^ UInt32.ofNat bytes.length)

end FlagFanout.Murmur3
