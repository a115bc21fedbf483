import FlagFanout.Flag.Definition
import FlagFanout.Json.Record

/-!
# Flag definitions in JSON

Every part of a flag definition is written as an object with its fields in order and read back as
a record. Rules and rollout may be left out of a flag, and the attribute out of a rollout, where
it is `id`.
-/

namespace FlagFanout

/-- The operator that a tag names. -/
def Operator.ofJson? (j : Json) : Option Operator := j.tag?.bind ofName?

namespace Variant

/-- The object that is written for a variant. -/
def toJson (v : Variant) : Json := .obj [("id", .str v.id), ("value", v.value.toJson)]

/-- The variant that a record writes. -/
def ofJson? (j : Json) : Option Variant := do
  let r ← j.record? ["id", "value"]
  return ⟨← r.required "id" Json.str?, ← r.required "value" FlagValue.ofJson?⟩

end Variant

namespace Condition

/-- The object that is written for a condition. -/
def toJson (c : Condition) : Json :=
  .obj [("attribute", .str c.attributeKey), ("operator", .str c.operator.name),
    ("value", c.expected.toJson)]

/-- The condition that a record writes. -/
def ofJson? (j : Json) : Option Condition := do
  let r ← j.record? ["attribute", "operator", "value"]
  return ⟨← r.required "attribute" Json.str?, ← r.required "operator" Operator.ofJson?,
    ← r.required "value" Attribute.ofJson?⟩

end Condition

/-- The values of an array whose items are all read. -/
def Json.itemsOf? {α : Type} (read : Json → Option α) (j : Json) : Option (List α) :=
  j.arr?.bind (·.mapM read)

namespace Rule

/-- The object that is written for a rule. -/
def toJson (r : Rule) : Json :=
  .obj [("conditions", .arr (r.conditions.map Condition.toJson)), ("variant", r.variant.toJson)]

/-- The rule that a record writes. -/
def ofJson? (j : Json) : Option Rule := do
  let r ← j.record? ["conditions", "variant"]
  return ⟨← r.required "conditions" (Json.itemsOf? Condition.ofJson?),
    ← r.required "variant" Variant.ofJson?⟩

end Rule

namespace Rollout

/-- The object that is written for a rollout. -/
def toJson (r : Rollout) : Json :=
  .obj [("attribute", .str r.attributeKey), ("percentage", .int r.percentage.toNat),
    ("variant", r.variant.toJson)]

/-- The percentage that an integer of 32 bits writes. -/
def percentage? : Json → Option UInt32
  | .int i => if 0 ≤ i ∧ i < UInt32.size then some (UInt32.ofNat i.toNat) else none
  | _ => none

/-- The rollout that a record writes. -/
def ofJson? (j : Json) : Option Rollout := do
  let r ← j.record? ["attribute", "percentage", "variant"]
  return ⟨← r.defaulted "attribute" "id" Json.str?, ← r.required "percentage" percentage?,
    ← r.required "variant" Variant.ofJson?⟩

end Rollout

namespace Flag

/-- The object that is written for a flag. -/
def toJson (f : Flag) : Json :=
  .obj [("key", .str f.key), ("default", f.fallback.toJson),
    ("rules", .arr (f.rules.map Rule.toJson)),
    ("rollout", f.rollout.elim .null Rollout.toJson)]

/-- The flag that a record writes. -/
def ofJson? (j : Json) : Option Flag := do
  let r ← j.record? ["key", "default", "rules", "rollout"]
  return ⟨← r.required "key" Json.str?, ← r.required "default" Variant.ofJson?,
    ← r.defaulted "rules" [] (Json.itemsOf? Rule.ofJson?),
    ← r.defaulted "rollout" none (Json.Record.nullable Rollout.ofJson?)⟩

end Flag

end FlagFanout
