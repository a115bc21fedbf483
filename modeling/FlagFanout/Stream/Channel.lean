import FlagFanout.Engine
import FlagFanout.Payload
import FlagFanout.Selector

/-!
# Channels

The connections of a stream that watch the same selector for equal contexts share a channel. A
channel remembers what it last delivered, so that a change of the configuration reaches its members
only where a served value moved.

* `Snapshot.initial` is what a new channel holds.
* `Snapshot.refresh` compares the snapshot with a fresh evaluation and gives the new snapshot
  together with the message to push, if anything moved.
-/

namespace FlagFanout

/-- What a channel last delivered. -/
inductive Snapshot where
  | flag (key : String) (payload : Payload)
  | flags (payloads : KeyMap String Payload)
  deriving DecidableEq

namespace Snapshot

/-- The payload of an evaluation, or that of a flag without value. -/
def payloadOf : Except FlagError Evaluation → Payload
  | .ok e => .ofEvaluation e
  | .error _ => .unavailable

/-- A fresh evaluation of what a selector selects; in a scan of all flags those that fail are left
out. -/
def initial (ev : Evaluator) (selector : Selector) (context : Option Context) : Snapshot :=
  match selector with
  | .flag key => flag key (payloadOf (ev.evaluate key context))
  | .all => flags ((ev.evaluateAll context).filterMap fun _ r => r.toOption.map .ofEvaluation)

/-- The full state, which a new member receives first. -/
def message : Snapshot → Message
  | flag _ p => .flag p
  | flags ps => .flags ps

/-- The payloads last delivered and those that moved. -/
structure Scan where
  last : KeyMap String Payload
  changed : KeyMap String Payload

/-- One key of a scan: a value that is new or differs from the last one is stored and goes into
the changes; a failing key is passed over. -/
def scanKey (s : Scan) (key : String) (result : Except FlagError Evaluation) : Scan :=
  match result with
  | .error _ => s
  | .ok e =>
    if (s.last.get? key).any (·.hasSameValue e) then s
    else ⟨s.last.insert key (.ofEvaluation e), s.changed.insert key (.ofEvaluation e)⟩

/-- A scan over the results of all flags. -/
def scan (last : KeyMap String Payload) (results : List (String × Except FlagError Evaluation)) :
    Scan :=
  results.foldl (fun s r => scanKey s r.1 r.2) ⟨last, .empty⟩

/-- The snapshot after a change of the configuration, and the message to push if a value moved. A
single flag that fails keeps its last payload. -/
def refresh (ev : Evaluator) (context : Option Context) : Snapshot → Snapshot × Option Message
  | flag key p =>
    match ev.evaluate key context with
    | .error _ => (flag key p, none)
    | .ok e =>
      if p.hasSameValue e then (flag key p, none)
      else (flag key (.ofEvaluation e), some (.flag (.ofEvaluation e)))
  | flags last =>
    let s := scan last (ev.evaluateAll context).toList
    (flags s.last, if s.changed.isEmpty then none else some (.flags s.changed))

end Snapshot

/-- A connection, by the serial number of its stream and its number there. -/
structure ConnectionId where
  stream : Nat
  number : Nat
  deriving DecidableEq, Repr

/-- Connections that are served together. -/
structure Channel where
  last : Snapshot
  /-- The context of the connection for which the channel was made. -/
  context : Option Context
  /-- The members in the order in which they joined. -/
  members : List ConnectionId

namespace Channel

/-- A channel without members. -/
def fresh (ev : Evaluator) (selector : Selector) (context : Option Context) : Channel :=
  ⟨.initial ev selector context, context, []⟩

/-- The channel with a member behind the others. -/
def join (c : Channel) (id : ConnectionId) : Channel := { c with members := c.members ++ [id] }

/-- The channel without a member. -/
def leave (c : Channel) (id : ConnectionId) : Channel :=
  { c with members := c.members.erase id }

/-- Whether there are no members. -/
def isEmpty (c : Channel) : Bool := c.members.isEmpty

end Channel

/-! ## The index of channels -/

/-- The channels of a stream: for each selector a bucket of channels by discriminator. -/
structure ChannelIndex where
  buckets : KeyMap Selector (KeyMap UInt64 Channel)
  deriving Inhabited

namespace ChannelIndex

/-- No channel. -/
def empty : ChannelIndex := ⟨.empty⟩

/-- The channels of a selector. -/
def bucket (i : ChannelIndex) (selector : Selector) : KeyMap UInt64 Channel :=
  (i.buckets.get? selector).getD .empty

/-- The channel of a selector and a discriminator. -/
def find? (i : ChannelIndex) (selector : Selector) (discriminator : UInt64) : Option Channel :=
  (i.bucket selector).get? discriminator

/-- The index with a channel written. -/
def put (i : ChannelIndex) (selector : Selector) (discriminator : UInt64) (c : Channel) :
    ChannelIndex :=
  ⟨i.buckets.insert selector ((i.bucket selector).insert discriminator c)⟩

/-- The bucket without the channel of a discriminator if that has no members. -/
def dropIfEmpty (b : KeyMap UInt64 Channel) (discriminator : UInt64) : KeyMap UInt64 Channel :=
  if (b.get? discriminator).any (·.isEmpty) then b.erase discriminator else b

/-- The index without the channel of a selector and a discriminator if that has no members, and
without the bucket if nothing is left in it. -/
def collect (i : ChannelIndex) (selector : Selector) (discriminator : UInt64) : ChannelIndex :=
  match i.buckets.get? selector with
  | none => i
  | some b =>
    let b := dropIfEmpty b discriminator
    if b.isEmpty then ⟨i.buckets.erase selector⟩ else ⟨i.buckets.insert selector b⟩

/-- Where the channels are, selector by selector. -/
def places (i : ChannelIndex) : List (Selector × UInt64) :=
  i.buckets.toList.flatMap fun e => e.2.keys.map (e.1, ·)

/-- Every channel with its place. -/
def channels (i : ChannelIndex) : List ((Selector × UInt64) × Channel) :=
  i.buckets.toList.flatMap fun e => e.2.toList.map fun f => ((e.1, f.1), f.2)

/-- The number of channels. -/
def count (i : ChannelIndex) : Nat := i.channels.length

/-- All members of all channels. -/
def members (i : ChannelIndex) : List ConnectionId := i.channels.flatMap (·.2.members)

end ChannelIndex

end FlagFanout
