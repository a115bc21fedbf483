import FlagFanout.Config.Policy
import FlagFanout.Json.Record

/-!
# Configuration in layers

A layer sets some of the settings of a stream. Layers are merged in order, so the last one that
sets a field decides it; what no layer sets has a default. Resolving a layer refuses capacities of
zero, that of the mailboxes first.
-/

namespace FlagFanout

/-- Why a configuration cannot be used. -/
inductive ConfigError where
  /-- The file is there and cannot be read as text. -/
  | fileRead (reason : String)
  /-- The text of the file is refused. -/
  | fileParse
  /-- A setting has a value that it cannot have. -/
  | invalidValue (key reason : String)
  deriving DecidableEq, Repr

namespace ConfigError

/-- A file that is a directory. -/
def directory : ConfigError := fileRead "Is a directory (os error 21)"

/-- A file that is not text. -/
def notText : ConfigError := fileRead "stream did not contain valid UTF-8"

/-- The wording of an error about the file at `path`; that of a refused text is not fixed. -/
def message? (path : String) : ConfigError → Option String
  | fileRead reason => some ("failed to read config file " ++ path ++ ": " ++ reason)
  | fileParse => none
  | invalidValue key reason => some ("invalid value for " ++ key ++ ": " ++ reason)

end ConfigError

/-- The settings that all streams of a server share. -/
structure StreamConfig where
  /-- The room in the mailbox of each connection. -/
  mailboxCapacity : Nat
  /-- The room in the queue of commands of a stream. -/
  commandQueueCapacity : Nat
  delivery : DeliveryPolicy
  /-- The label under which metrics are reported. -/
  serverType : String
  deriving DecidableEq, Repr

namespace StreamConfig

/-- The settings where nothing else is asked for. -/
def default : StreamConfig := ⟨128, 256, .dropNewest, "stream"⟩

instance : Inhabited StreamConfig := ⟨default⟩

/-- The object that is written for a configuration. -/
def toJson (c : StreamConfig) : Json :=
  .obj [("mailbox_capacity", .int c.mailboxCapacity),
    ("command_queue_capacity", .int c.commandQueueCapacity),
    ("delivery", .str c.delivery.name), ("server_type", .str c.serverType)]

end StreamConfig

/-- Settings of which each may be left open. -/
structure ConfigLayer where
  mailboxCapacity : Option Nat
  commandQueueCapacity : Option Nat
  delivery : Option DeliveryPolicy
  serverType : Option String
  deriving DecidableEq, Repr

namespace ConfigLayer

/-- The layer that sets nothing. -/
def empty : ConfigLayer := ⟨none, none, none, none⟩

instance : Inhabited ConfigLayer := ⟨empty⟩

/-- The layer with every setting of `top` in place of its own. -/
def merge (base top : ConfigLayer) : ConfigLayer where
  mailboxCapacity := top.mailboxCapacity.or base.mailboxCapacity
  commandQueueCapacity := top.commandQueueCapacity.or base.commandQueueCapacity
  delivery := top.delivery.or base.delivery
  serverType := top.serverType.or base.serverType

/-- A sequence of layers merged into one, the later over the earlier. -/
def mergeAll (layers : List ConfigLayer) : ConfigLayer := layers.foldl merge empty

/-- A capacity, which must leave some room. -/
def positive (key : String) (n : Nat) : Except ConfigError Nat :=
  if n = 0 then .error (.invalidValue key "must be greater than zero") else .ok n

/-- The configuration that a layer settles, with defaults where it is open. -/
def finalize (l : ConfigLayer) : Except ConfigError StreamConfig := do
  let mailboxCapacity ←
    positive "mailbox_capacity" (l.mailboxCapacity.getD StreamConfig.default.mailboxCapacity)
  let commandQueueCapacity ←
    positive "command_queue_capacity"
      (l.commandQueueCapacity.getD StreamConfig.default.commandQueueCapacity)
  return {
    mailboxCapacity
    commandQueueCapacity
    delivery := l.delivery.getD StreamConfig.default.delivery
    serverType := l.serverType.getD StreamConfig.default.serverType }

/-! ## JSON -/

/-- The object that is written for a layer. -/
def toJson (l : ConfigLayer) : Json :=
  let number (n : Option Nat) : Json := n.elim .null fun n => .int n
  .obj [("mailbox_capacity", number l.mailboxCapacity),
    ("command_queue_capacity", number l.commandQueueCapacity),
    ("delivery", l.delivery.elim .null fun d => .str d.name),
    ("server_type", l.serverType.elim .null .str)]

/-- The capacity that an integer of 64 bits without sign writes. -/
def capacity? : Json → Option Nat
  | .int i => if 0 ≤ i ∧ i < UInt64.size then some i.toNat else none
  | _ => none

/-- The layer that a record writes. By position every setting is given, an open one as `null`. -/
def ofJson? (j : Json) : Option ConfigLayer := do
  let r ← j.record? ["mailbox_capacity", "command_queue_capacity", "delivery", "server_type"]
  return ⟨← r.optional "mailbox_capacity" capacity?,
    ← r.optional "command_queue_capacity" capacity?,
    ← r.optional "delivery" fun j => j.tag?.bind DeliveryPolicy.ofName?,
    ← r.optional "server_type" Json.str?⟩

end ConfigLayer

end FlagFanout
