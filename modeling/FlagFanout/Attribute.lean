import FlagFanout.Json.Value
import FlagFanout.Number.Layout

/-!
# Attributes

An attribute of a user or a request is a text, a number or a list of texts. Two readers take it
from JSON: the strict one knows exactly these forms and reads the values of conditions; the
lenient one reads what clients send and drops the items of a list that are not texts.
-/

namespace FlagFanout

/-- Attributes in text: every digit is written out, and an integer has no point; a tie goes up. -/
def Layout.plain : Layout := ⟨.up, none, false⟩

/-- A text, a number or a list of texts. -/
inductive Attribute where
  | text (s : String)
  | number (x : Binary64)
  | list (items : List String)
  deriving DecidableEq, Inhabited

namespace Attribute

/-- Attributes are equal if they are of one kind with equal values; numbers compare as numbers. -/
protected def beq : Attribute → Attribute → Bool
  | text s, text t => s = t
  | number x, number y => x == y
  | list xs, list ys => xs = ys
  | _, _ => false

instance : BEq Attribute := ⟨Attribute.beq⟩

/-- The text that rules match against; a list has none. -/
def asText? : Attribute → Option String
  | text s => some s
  | number x => some (Layout.plain.write x)
  | list _ => none

/-! ## JSON -/

/-- The value that is written for an attribute. -/
def toJson : Attribute → Json
  | text s => .str s
  | number x => .ofBinary64 x
  | list items => .arr (items.map .str)

/-- The strict reader: a string, a number or a list of nothing but strings. -/
def ofJson? : Json → Option Attribute
  | .str s => some (text s)
  | .arr items => (items.mapM Json.str?).map list
  | j => j.number?.map number

/-- The reader for what clients send: the items of a list that are not strings are dropped. -/
def ofClient? : Json → Option Attribute
  | .str s => some (text s)
  | .arr items => some (list (items.filterMap Json.str?))
  | j => j.number?.map number

end Attribute

end FlagFanout
