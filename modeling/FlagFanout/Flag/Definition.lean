import FlagFanout.FlagValue
import FlagFanout.Flag.Operator

/-!
# Flag definitions

A flag serves one of its variants. Targeting rules are tried first, in order; then an optional
rollout serves its variant to a share of the contexts; the default variant serves the rest.
-/

namespace FlagFanout

/-- A named value that a flag can serve. -/
structure Variant where
  id : String
  value : FlagValue
  deriving DecidableEq, Inhabited

/-- A test on one attribute of the context. -/
structure Condition where
  attributeKey : String
  operator : Operator
  expected : Attribute
  deriving DecidableEq, Inhabited

/-- A variant that is served where every condition holds. -/
structure Rule where
  conditions : List Condition
  variant : Variant
  deriving DecidableEq, Inhabited

/-- A variant that is served to a stable share of the contexts, told apart by one attribute. -/
structure Rollout where
  attributeKey : String
  percentage : UInt32
  variant : Variant
  deriving DecidableEq, Inhabited

/-- A flag: its key, its default variant, and whom it serves something else. -/
structure Flag where
  key : String
  fallback : Variant
  rules : List Rule
  rollout : Option Rollout
  deriving DecidableEq, Inhabited

namespace Flag

/-- A flag with nothing but a default variant. -/
def ofVariant (key : String) (fallback : Variant) : Flag := ⟨key, fallback, [], none⟩

/-- A flag that always serves one value, under a variant named after the flag. -/
def constant (key : String) (value : FlagValue) : Flag :=
  ofVariant key ⟨key ++ ".default", value⟩

/-- The flag with a rule added behind its rules. -/
def withRule (f : Flag) (rule : Rule) : Flag := { f with rules := f.rules ++ [rule] }

/-- The flag with a rollout, in place of the one it had. -/
def withRollout (f : Flag) (rollout : Rollout) : Flag := { f with rollout := some rollout }

end Flag

end FlagFanout
