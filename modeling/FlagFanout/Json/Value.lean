import FlagFanout.Number.Rounding

/-!
# JSON values

`Json` is the tree of a JSON text. Integers and other numbers are kept apart, because readers of
flag values tell `1` from `1.0`. The members of an object stand in a list: in the order of the
text or of the type that is written out; where a key stands more than once, the last member
counts (`Json.field?`).
-/

namespace FlagFanout

/-- The tree of a JSON text. -/
inductive Json where
  | null
  | bool (b : Bool)
  /-- A number written without point and exponent that fits into 64 bits. -/
  | int (i : Int)
  /-- Every other number. -/
  | float (x : Binary64)
  | str (s : String)
  | arr (items : List Json)
  | obj (members : List (String × Json))
  deriving Inhabited

namespace Json

/-- The value of a key among the members of an object: the last one given. -/
def lastMember? (key : String) (members : List (String × Json)) : Option Json :=
  (members.reverse.find? (·.1 = key)).map (·.2)

/-- The member of an object at a key; `none` for any other value. -/
def field? (key : String) : Json → Option Json
  | obj members => lastMember? key members
  | _ => none

/-- The text of a string value. -/
def str? : Json → Option String
  | str s => some s
  | _ => none

/-- The items of an array value. -/
def arr? : Json → Option (List Json)
  | arr items => some items
  | _ => none

/-- The number of a number value, rounded to a double if it is an integer. -/
def number? : Json → Option Binary64
  | int i => some (Binary64.ofInt i)
  | float x => some x
  | _ => none

/-- The texts of an array that holds nothing but strings. -/
def strings? (j : Json) : Option (List String) := j.arr?.bind (·.mapM str?)

/-- Whether the value is `null`. -/
def isNull : Json → Bool
  | null => true
  | _ => false

/-- A double as a value: what is not finite cannot be written and becomes `null`. -/
def ofBinary64 (x : Binary64) : Json := if x.isFinite then float x else null

end Json

end FlagFanout
