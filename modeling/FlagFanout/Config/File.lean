import FlagFanout.Config.Environment
import FlagFanout.Text.Bytes
import FlagFanout.Toml.Document

/-!
# Configuration from a file

A TOML file carries the settings of streams in the table `stream`; everything else in it is
ignored. The settings may also stand in an array, all four in order. The environment is laid over
the file, and only what results must leave room in mailboxes and queue.
-/

namespace FlagFanout

/-- What stands at the path of a configuration file. -/
inductive ConfigFile where
  | missing
  | directory
  | bytes (content : List UInt8)

namespace ConfigFile

/-- The capacity that an integer writes. -/
def capacity? : Toml → Option Nat
  | .int i => if 0 ≤ i then some i.toNat else none
  | _ => none

/-- The text of a string. -/
def text? : Toml → Option String
  | .text s => some s
  | _ => none

/-- Whether a value holds nothing, as it may stand behind a name. -/
def isVoid : Toml → Bool
  | .array [] => true
  | .table _ [] => true
  | _ => false

/-- The name that a value writes: a string, or a table with the name as its only key and nothing
behind it. -/
def tag? : Toml → Option String
  | .text s => some s
  | .table _ [(name, v)] => if isVoid v then some name else none
  | _ => none

/-- The policy that a value names. -/
def policy? (v : Toml) : Option DeliveryPolicy := (tag? v).bind DeliveryPolicy.ofName?

/-- What a reader makes of a member, if it is there. -/
def optional {α : Type} (members : Toml.Members) (key : String) (read : Toml → Option α) :
    Option (Option α) :=
  match Toml.member? key members with
  | none => some none
  | some v => (read v).map some

/-- The layer that a value writes. A date has no settings among its parts. -/
def layerOf? : Toml → Option ConfigLayer
  | .table _ members => do
    return ⟨← optional members "mailbox_capacity" capacity?,
      ← optional members "command_queue_capacity" capacity?,
      ← optional members "delivery" policy?,
      ← optional members "server_type" text?⟩
  | .array (mailbox :: queue :: delivery :: serverType :: _) => do
    return ⟨some (← capacity? mailbox), some (← capacity? queue), some (← policy? delivery),
      some (← text? serverType)⟩
  | .moment => some .empty
  | _ => none

/-- The layer that the text of a file writes. -/
def layerOfText? (text : String) : Option ConfigLayer := do
  match Toml.member? "stream" (← Toml.ofText? text) with
  | none => return .empty
  | some v => layerOf? v

/-- The layer that a file sets; a file that does not exist sets nothing. -/
def layer : ConfigFile → Except ConfigError ConfigLayer
  | missing => .ok .empty
  | directory => .error .directory
  | bytes content =>
    match ofUtf8? content with
    | none => .error .notText
    | some text => (layerOfText? text).elim (.error .fileParse) .ok

end ConfigFile

/-- The configuration from a file and the environment. -/
def StreamConfig.load (file : ConfigFile) (env : Environment) : Except ConfigError StreamConfig :=
  do
  let fromFile ← file.layer
  let fromEnvironment ← env.layer
  (ConfigLayer.mergeAll [fromFile, fromEnvironment]).finalize

end FlagFanout
