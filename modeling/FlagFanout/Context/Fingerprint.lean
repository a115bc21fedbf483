import FlagFanout.Context
import FlagFanout.Text.Bytes

/-!
# Fingerprints of contexts

Connections are grouped by a 64-bit number computed from their context. `Context.bytes` lays a
context out as bytes: for each attribute in key order the key, then a tag for the kind of value and
the value. Texts end with the byte `0xFF`, which no UTF-8 text contains; a number is its eight
bytes, the negative zero as the positive one; a list starts with its length. The bytes are digested
by whatever hash function a stream uses.
-/

namespace FlagFanout

/-- The eight bytes of a word, the lowest first. -/
def littleEndian (w : UInt64) : List UInt8 :=
  (List.range 8).map fun i => (w >>> UInt64.ofNat (8 * i)).toUInt8

/-- A text with a terminator behind it. -/
def terminated (text : String) : List UInt8 := utf8 text ++ [0xFF]

/-- The bytes of an attribute: its kind, then its value. -/
def Attribute.bytes : Attribute → List UInt8
  | text s => 0x00 :: terminated s
  | number x => 0x01 :: littleEndian x.mergeZeros.bits
  | list items =>
    0x02 :: (littleEndian (UInt64.ofNat items.length) ++ items.flatMap terminated)

namespace Context

/-- The bytes of a context. -/
def bytes (c : Context) : List UInt8 :=
  c.attributes.toList.flatMap fun e => terminated e.1 ++ e.2.bytes

/-- The number by which connections with this context are grouped. -/
def discriminator (digest : List UInt8 → UInt64) (c : Context) : UInt64 := digest c.bytes

/-- The grouping number of an optional context; without one it is 0. -/
def discriminator? (digest : List UInt8 → UInt64) (c : Option Context) : UInt64 :=
  c.elim 0 (discriminator digest)

end Context

end FlagFanout
