/-!
# The 64-bit hash of Fowler, Noll and Vo, variant 1a

Each byte is joined to the state by exclusive or before the state is multiplied by the prime.
-/

namespace FlagFanout.Fnv

/-- The state before the first byte. -/
def offset : UInt64 := 14695981039346656037

/-- The multiplier. -/
def prime : UInt64 := 1099511628211

/-- The hash of a sequence of bytes. -/
def hash (bytes : List UInt8) : UInt64 :=
  bytes.foldl (fun state b => (state ^^^ b.toUInt64) * prime) offset

/-- The hash of a longer sequence continues from the hash of its front. -/
theorem hash_append (a b : List UInt8) :
    hash (a ++ b) = b.foldl (fun state b => (state ^^^ b.toUInt64) * prime) (hash a) :=
  List.foldl_append

end FlagFanout.Fnv
