import FlagFanout.Flag.Evaluation
import FlagFanout.Json.Record
import FlagFanout.KeyMap

/-!
# What clients receive

A payload is what a client learns of one flag: its value, if it could be evaluated, and the
variation that served it. A message carries either the payload of a single flag or those of
several flags by key.
-/

namespace FlagFanout

/-- What a client learns of one flag. -/
structure Payload where
  value : Option FlagValue
  variation : String
  deriving DecidableEq, Inhabited

namespace Payload

/-- The payload of a flag that could not be evaluated. -/
def unavailable : Payload := ⟨none, ""⟩

/-- The payload of an evaluation. -/
def ofEvaluation (e : Evaluation) : Payload := ⟨some e.value, e.variation⟩

/-- Whether an evaluation has the same value; a new variation alone is no change. -/
def hasSameValue (p : Payload) (e : Evaluation) : Bool := p.value.any (· == e.value)

/-- The object that is written for a payload. -/
def toJson (p : Payload) : Json :=
  .obj [("value", p.value.elim .null FlagValue.toJson), ("variationId", .str p.variation)]

/-- The payload that a record writes. -/
def ofJson? (j : Json) : Option Payload := do
  let r ← j.record? ["value", "variationId"]
  return ⟨← r.optional "value" FlagValue.ofJson?, ← r.required "variationId" Json.str?⟩

end Payload

/-- What is pushed to a connection at once. -/
inductive Message where
  | flag (payload : Payload)
  | flags (payloads : KeyMap String Payload)
  deriving DecidableEq

namespace Message

/-- The payload of a single flag. -/
def flag? : Message → Option Payload
  | flag p => some p
  | flags _ => none

/-- The payloads of several flags. -/
def flags? : Message → Option (KeyMap String Payload)
  | flag _ => none
  | flags ps => some ps

/-- The value that is written: the two forms carry no tag. -/
def toJson : Message → Json
  | flag p => p.toJson
  | flags ps => .obj (ps.toList.map fun e => (e.1, e.2.toJson))

end Message

end FlagFanout
