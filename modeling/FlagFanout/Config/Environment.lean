import FlagFanout.Config.Layer
import FlagFanout.Number.Reading

/-!
# Configuration from the environment

Four variables set the four settings of a stream. An empty variable counts as unset. The delivery
policy is checked first, then the capacity of mailboxes, then that of the queue of commands.
-/

namespace FlagFanout

/-- The values of environment variables that are set to text. -/
abbrev Environment := String → Option String

namespace Environment

/-- The variable of the delivery policy. -/
def delivery : String := "LOOM_FLAGS_STREAM_DELIVERY"

/-- The variable of the capacity of mailboxes. -/
def mailboxCapacity : String := "LOOM_FLAGS_STREAM_MAILBOX_CAPACITY"

/-- The variable of the capacity of the queue of commands. -/
def commandQueueCapacity : String := "LOOM_FLAGS_STREAM_COMMAND_QUEUE_CAPACITY"

/-- The variable of the label under which metrics are reported. -/
def serverType : String := "LOOM_FLAGS_STREAM_SERVER_TYPE"

/-- The value of a variable that is set and not empty. -/
def value? (env : Environment) (name : String) : Option String := (env name).filter (· ≠ "")

/-- A natural of 64 bits in digits, after an optional plus sign, blanks around it apart. -/
def natural? (text : String) : Option Nat :=
  let cs := trimBlanks text.toList
  let ds := match cs with
    | '+' :: rest => rest
    | cs => cs
  if ds.isEmpty || !ds.all Char.isDigit then none
  else if naturalOf ds < UInt64.size then some (naturalOf ds) else none

/-- The capacity that a variable sets. -/
def capacity (env : Environment) (name : String) : Except ConfigError (Option Nat) :=
  match env.value? name with
  | none => .ok none
  | some v =>
    match natural? v with
    | some n => .ok (some n)
    | none => .error (.invalidValue name ("invalid usize value '" ++ v ++ "'"))

/-- The delivery policy that the environment sets. -/
def policy (env : Environment) : Except ConfigError (Option DeliveryPolicy) :=
  match env.value? delivery with
  | none => .ok none
  | some v =>
    match DeliveryPolicy.ofText? v with
    | some p => .ok (some p)
    | none => .error (.invalidValue delivery (DeliveryPolicy.unknown v))

/-- The layer that the environment sets. -/
def layer (env : Environment) : Except ConfigError ConfigLayer := do
  let delivery ← env.policy
  let mailboxCapacity ← env.capacity mailboxCapacity
  let commandQueueCapacity ← env.capacity commandQueueCapacity
  return ⟨mailboxCapacity, commandQueueCapacity, delivery, env.value? serverType⟩

end Environment

/-- The configuration from the environment alone. -/
def StreamConfig.ofEnvironment (env : Environment) : Except ConfigError StreamConfig := do
  (← env.layer).finalize

end FlagFanout
