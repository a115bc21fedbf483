import FlagFanout.Text.Blank

/-!
# Delivery policies

What happens to a payload when the mailbox of a connection is full. Free text names a policy up to
blanks around it, upper case and hyphens.
-/

namespace FlagFanout

/-- What happens to a payload when a mailbox is full. -/
inductive DeliveryPolicy where
  /-- The payload is skipped for that connection. -/
  | dropNewest
  /-- The whole project waits until there is room. -/
  | block
  deriving DecidableEq, Repr, Inhabited

namespace DeliveryPolicy

/-- The name of a policy. -/
def name : DeliveryPolicy → String
  | dropNewest => "drop_newest"
  | block => "block"

/-- The policy of exactly this name. -/
def ofName? (name : String) : Option DeliveryPolicy :=
  [dropNewest, block].find? (·.name = name)

/-- Free text as a name: without blanks around it, in lower case, with underscores. -/
def normalize (text : String) : String :=
  String.ofList ((trimBlanks text.toList).map fun c => if c = '-' then '_' else c.toLower)

/-- The policy that free text names. -/
def ofText? (text : String) : Option DeliveryPolicy := ofName? (normalize text)

/-- The complaint about a text that names no policy. -/
def unknown (text : String) : String :=
  "unknown delivery policy '" ++ normalize text ++ "', expected 'drop_newest' or 'block'"

end DeliveryPolicy

end FlagFanout
