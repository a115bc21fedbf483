import FlagFanout.Json.Value

/-!
# Flag values

The scalar that a flag serves: a boolean, an integer of 64 bits, a double or a text. On the wire it
is the bare JSON value, so reading decides the kind: a number is an integer if it is written as one
and fits into 64 bits.
-/

namespace FlagFanout

/-- The scalar that a flag serves. -/
inductive FlagValue where
  | bool (b : Bool)
  | int (i : Int64)
  | float (x : Binary64)
  | text (s : String)
  deriving DecidableEq, Inhabited

namespace FlagValue

/-- Values are equal if they are of one kind with equal contents; floats compare as numbers. -/
protected def beq : FlagValue → FlagValue → Bool
  | bool a, bool b => a = b
  | int i, int j => i = j
  | float x, float y => x == y
  | text s, text t => s = t
  | _, _ => false

instance : BEq FlagValue := ⟨FlagValue.beq⟩

/-- The boolean of a boolean value. -/
def bool? : FlagValue → Option Bool
  | bool b => some b
  | _ => none

/-- The text of a text value. -/
def text? : FlagValue → Option String
  | text s => some s
  | _ => none

/-- The value that is written. -/
def toJson : FlagValue → Json
  | bool b => .bool b
  | int i => .int i.toInt
  | float x => .ofBinary64 x
  | text s => .str s

/-- The value that a boolean, a number or a string writes. -/
def ofJson? : Json → Option FlagValue
  | .bool b => some (bool b)
  | .int i =>
    if (Int64.ofInt i).toInt = i then some (int (Int64.ofInt i)) else some (float (.ofInt i))
  | .float x => some (float x)
  | .str s => some (text s)
  | _ => none

end FlagValue

end FlagFanout
