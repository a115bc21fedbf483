import FlagFanout.Attribute
import FlagFanout.Number.Reading
import FlagFanout.Text.Blank

/-!
# Operators of conditions

A condition compares an attribute of the context with an expected one. Texts are compared
character by character; `greaterThan` and `lessThan` compare numbers, also numbers that stand in
texts; `oneOf` and `noneOf` look the text of an attribute up in a list.
-/

namespace FlagFanout

/-- A comparison between an attribute of a context and the attribute that a condition expects. -/
inductive Operator where
  | equals
  | notEquals
  | contains
  | startsWith
  | endsWith
  | greaterThan
  | lessThan
  | oneOf
  | noneOf
  deriving DecidableEq, Repr, Inhabited

namespace Operator

/-- The operators in their usual order. -/
def all : List Operator :=
  [equals, notEquals, contains, startsWith, endsWith, greaterThan, lessThan, oneOf, noneOf]

/-- The name of an operator. -/
def name : Operator → String
  | equals => "equals"
  | notEquals => "not_equals"
  | contains => "contains"
  | startsWith => "starts_with"
  | endsWith => "ends_with"
  | greaterThan => "greater_than"
  | lessThan => "less_than"
  | oneOf => "in"
  | noneOf => "not_in"

/-- The operator with a given name. -/
def ofName? (name : String) : Option Operator := all.find? (·.name = name)

/-! ## Comparing -/

/-- Whether `part` stands somewhere in a text. -/
def occursIn (part : List Char) : List Char → Bool
  | [] => part.isEmpty
  | c :: rest => part.isPrefixOf (c :: rest) || occursIn part rest

/-- Whether a text contains a text, or a list of texts has it as an item. -/
def containsText : Attribute → Attribute → Bool
  | .text a, .text e => occursIn e.toList a.toList
  | .list items, .text e => items.contains e
  | _, _ => false

/-- A test on two texts; any other attributes fail it. -/
def onTexts (test : List Char → List Char → Bool) : Attribute → Attribute → Bool
  | .text a, .text e => test a.toList e.toList
  | _, _ => false

/-- The number of an attribute; a text is read as a number, blanks around it apart. -/
def numberOf? : Attribute → Option Binary64
  | .number x => some x
  | .text s => Binary64.ofText? (String.ofList (trimBlanks s.toList))
  | .list _ => none

/-- A test on two numbers; any other attributes fail it. -/
def onNumbers (test : Binary64 → Binary64 → Bool) (actual expected : Attribute) : Bool :=
  match numberOf? actual, numberOf? expected with
  | some a, some e => test a e
  | _, _ => false

/-- Whether the text of an attribute is an item of the expected list; `none` if one of them is
not of that kind. -/
def listed? (actual expected : Attribute) : Option Bool :=
  match actual.asText?, expected with
  | some a, .list items => some (items.contains a)
  | _, _ => none

/-- Whether an attribute of a context meets the expected one. -/
def holds : Operator → Attribute → Attribute → Bool
  | equals, actual, expected => actual == expected
  | notEquals, actual, expected => !(actual == expected)
  | contains, actual, expected => containsText actual expected
  | startsWith, actual, expected => onTexts (fun a e => e.isPrefixOf a) actual expected
  | endsWith, actual, expected => onTexts (fun a e => e.isSuffixOf a) actual expected
  | greaterThan, actual, expected => onNumbers (fun a e => e.lt a) actual expected
  | lessThan, actual, expected => onNumbers Binary64.lt actual expected
  | oneOf, actual, expected => (listed? actual expected).getD false
  | noneOf, actual, expected => !(listed? actual expected).getD false

end Operator

end FlagFanout
