import FlagFanout.Context
import FlagFanout.Flag.Definition
import FlagFanout.Hash.Murmur3
import FlagFanout.Text.Bytes

/-!
# Evaluating a flag

`Flag.evaluate` serves a variant to an optional context. Without a context the default variant is
served. Otherwise the first rule whose conditions all hold decides; then the rollout, if the
context has a text or number at its attribute and falls into its share; then the default.

The share is decided by a hash of the flag's key and the attribute's text, so a context keeps its
bucket, one of a hundred, whatever the percentage is.
-/

namespace FlagFanout

/-- What a flag serves to one context. -/
structure Evaluation where
  value : FlagValue
  variation : String
  deriving DecidableEq, Inhabited

/-- What is served with a variant. -/
def Variant.served (v : Variant) : Evaluation := ⟨v.value, v.id⟩

/-- Whether the context has the attribute and it meets the expected one. -/
def Condition.matches (c : Condition) (context : Context) : Bool :=
  (context.get? c.attributeKey).any fun actual => c.operator.holds actual c.expected

/-- Whether every condition holds. -/
def Rule.matches (r : Rule) (context : Context) : Bool :=
  r.conditions.all (·.matches context)

namespace Flag

/-- The bucket, one of a hundred, of a text under the key of a flag. -/
def bucket (key text : String) : UInt32 := Murmur3.hash 0 (utf8 (key ++ "." ++ text)) % 100

/-- Whether a rollout of the flag reaches the context. -/
def reaches (key : String) (r : Rollout) (context : Context) : Bool :=
  ((context.get? r.attributeKey).bind Attribute.asText?).any fun text =>
    bucket key text < r.percentage

/-- The smallest percentage up to a hundred with which a rollout of the flag would reach the
context. -/
def smallestShare? (key : String) (r : Rollout) (context : Context) : Option Nat :=
  (List.range 101).find? fun share =>
    reaches key { r with percentage := UInt32.ofNat share } context

/-- What the flag serves to a context. -/
def evaluateFor (f : Flag) (context : Context) : Evaluation :=
  match f.rules.find? (·.matches context) with
  | some rule => rule.variant.served
  | none =>
    match f.rollout with
    | some r => if reaches f.key r context then r.variant.served else f.fallback.served
    | none => f.fallback.served

/-- What the flag serves to an optional context. -/
def evaluate (f : Flag) : Option Context → Evaluation
  | none => f.fallback.served
  | some context => f.evaluateFor context

end Flag

end FlagFanout
