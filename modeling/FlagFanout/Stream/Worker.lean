import FlagFanout.Stream.Channel
import FlagFanout.Stream.Mailbox

/-!
# The worker of a stream

One worker owns all channels of a stream and is the only one that writes into mailboxes. It takes
commands in the order in which they arrived; when there are none and a change was signalled, it
makes a pass over all channels and pushes what moved.

A pass is not one step. Between two steps the worker stands in a `Phase`: it may be between two
channels, or in the middle of pushing a message to the members of one, where under
`DeliveryPolicy.block` a full mailbox makes it wait; a worker that waits is stalled, and only there
is a pass ever cut off. What the worker does to the world outside its own state is listed as
`Effect`s: messages placed in mailboxes, messages skipped, and calls to the metrics.
-/

namespace FlagFanout

/-- A report to the metrics, labelled with the selector that is concerned. -/
inductive Metric where
  | opened (selector : Selector)
  | closed (selector : Selector)
  | sent (count : Nat) (selector : Selector)
  | dropped (count : Nat) (selector : Selector)
  deriving DecidableEq, Repr

/-- What a step of the worker does outside the worker. -/
inductive Effect where
  /-- A message was placed in the mailbox of a connection. -/
  | placed (id : ConnectionId) (m : Message)
  /-- A message met a full mailbox and was skipped. -/
  | skipped (id : ConnectionId) (m : Message)
  | metric (m : Metric)
  deriving DecidableEq

/-- The figures that a stream reports about itself. -/
structure Counters where
  openConnections : Nat
  channels : Nat
  sent : Nat
  dropped : Nat
  deriving DecidableEq, Repr, Inhabited

namespace Counters

/-- The figures of a new stream. -/
def zero : Counters := ⟨0, 0, 0, 0⟩

/-- The figures with one more connection. -/
def enter (c : Counters) : Counters := { c with openConnections := c.openConnections + 1 }

/-- The figures with one connection less. -/
def leave (c : Counters) : Counters := { c with openConnections := c.openConnections - 1 }

/-- The figures with the gauges at zero, once every connection was released. -/
def released (c : Counters) : Counters := { c with openConnections := 0, channels := 0 }

end Counters

/-- How the deliveries of a message, or of a pass, turned out so far. -/
structure Tally where
  sent : Nat
  dropped : Nat
  disconnected : Nat
  deriving DecidableEq, Repr, Inhabited

namespace Tally

/-- Nothing was delivered yet. -/
def zero : Tally := ⟨0, 0, 0⟩

/-- Two tallies together. -/
protected def add (s t : Tally) : Tally :=
  ⟨s.sent + t.sent, s.dropped + t.dropped, s.disconnected + t.disconnected⟩

instance : Add Tally := ⟨Tally.add⟩

end Tally

/-- The figures with deliveries added. -/
def Counters.deliver (c : Counters) (t : Tally) : Counters :=
  { c with sent := c.sent + t.sent, dropped := c.dropped + t.dropped }

/-- A change in the set of connections, as it was asked for. -/
inductive Command where
  | established (id : ConnectionId) (selector : Selector) (discriminator : UInt64)
    (context : Option Context)
  | closed (id : ConnectionId) (selector : Selector) (discriminator : UInt64)

/-- A pass over the channels after a change. -/
structure Pass where
  /-- Where the channels are that were not visited yet. -/
  todo : List (Selector × UInt64)
  /-- How the deliveries of the visited channels turned out. -/
  total : Tally
  /-- Where members were found gone, and how many. -/
  pruned : List ((Selector × UInt64) × Nat)

/-- A message on its way to the members of a channel. -/
structure Push where
  place : Selector × UInt64
  message : Message
  /-- The members that were served and stay, in order. -/
  served : List ConnectionId
  /-- The members that were not reached yet. -/
  waiting : List ConnectionId
  tally : Tally

/-- What the worker is in the middle of. -/
inductive Phase where
  | idle
  /-- Between two channels of a pass. -/
  | visiting (pass : Pass)
  /-- Pushing a message to the members of one channel. -/
  | pushing (pass : Pass) (push : Push)
  /-- Waiting for room in the mailbox of the next member. -/
  | stalled (pass : Pass) (push : Push)
  | stopped

/-- The state that belongs to the worker alone. -/
structure Worker where
  index : ChannelIndex
  counters : Counters
  phase : Phase

namespace Worker

/-- A worker without channels. -/
def idle : Worker := ⟨.empty, .zero, .idle⟩

instance : Inhabited Worker := ⟨idle⟩

/-- A worker after a step, with the mailboxes and what else the step did. -/
structure Result where
  worker : Worker
  mailboxes : Mailboxes
  effects : List Effect

/-! ## Bookkeeping -/

/-- The gauge of channels set to their number. -/
def recount (w : Worker) : Worker :=
  { w with counters := { w.counters with channels := w.index.count } }

/-- A channel without members is given up. -/
def collect (w : Worker) (place : Selector × UInt64) : Worker :=
  { w with index := w.index.collect place.1 place.2 }.recount

/-- One connection less. -/
def retire (w : Worker) : Worker :=
  { w with counters := w.counters.leave }

/-- Deliveries added to the running figures. -/
def count (w : Worker) (t : Tally) : Worker :=
  { w with counters := w.counters.deliver t }

/-- All channels given up and the gauges at zero, for good. -/
def stop (w : Worker) : Worker := ⟨.empty, w.counters.released, .stopped⟩

/-! ## Commands -/

/-- The channel at a place, or a fresh one. -/
def channelFor (w : Worker) (ev : Evaluator) (selector : Selector) (discriminator : UInt64)
    (context : Option Context) : Channel :=
  (w.index.find? selector discriminator).getD (.fresh ev selector context)

/-- A connection becomes the last member of a channel. -/
def join (w : Worker) (selector : Selector) (discriminator : UInt64) (c : Channel)
    (id : ConnectionId) : Worker :=
  let index := w.index.put selector discriminator (c.join id)
  { w with index, counters := w.counters.enter }.recount

/-- A new connection gets the current state of its channel and joins it; one whose receiver is gone
already leaves no trace. `none` while the worker has to wait for room in the mailbox. -/
def establish (w : Worker) (policy : DeliveryPolicy) (ev : Evaluator) (boxes : Mailboxes)
    (id : ConnectionId) (selector : Selector) (discriminator : UInt64)
    (context : Option Context) : Option Result :=
  let c := w.channelFor ev selector discriminator context
  let m := c.last.message
  let boxes' := boxes.offer policy id.number m
  match boxes.attempt policy id.number with
  | .waiting => none
  | .disconnected =>
    let w := { w with index := w.index.put selector discriminator c }
    some ⟨w.collect (selector, discriminator), boxes', []⟩
  | .sent =>
    some ⟨(w.count ⟨1, 0, 0⟩).join selector discriminator c id, boxes',
      [.placed id m, .metric (.sent 1 selector), .metric (.opened selector)]⟩
  | .dropped =>
    some ⟨(w.count ⟨0, 1, 0⟩).join selector discriminator c id, boxes',
      [.skipped id m, .metric (.dropped 1 selector), .metric (.opened selector)]⟩

/-- A connection leaves its channel; nothing happens if it is no member. -/
def close (w : Worker) (id : ConnectionId) (selector : Selector) (discriminator : UInt64) :
    Worker × List Effect :=
  match w.index.find? selector discriminator with
  | none => (w, [])
  | some c =>
    if id ∈ c.members then
      let w := { w with index := w.index.put selector discriminator (c.leave id) }
      ((w.collect (selector, discriminator)).retire, [.metric (.closed selector)])
    else (w, [])

/-- One command carried out. -/
def handle (w : Worker) (policy : DeliveryPolicy) (ev : Evaluator) (boxes : Mailboxes) :
    Command → Option Result
  | .established id selector discriminator context =>
    w.establish policy ev boxes id selector discriminator context
  | .closed id selector discriminator =>
    let (w, effects) := w.close id selector discriminator
    some ⟨w, boxes, effects⟩

/-! ## Passes -/

/-- A pass begins over the channels at the given places. -/
def beginPass (w : Worker) (places : List (Selector × UInt64)) : Worker :=
  { w with phase := .visiting ⟨places, .zero, []⟩ }

/-- The members found gone at one place are accounted for. -/
def prune (w : Worker) (place : Selector × UInt64) (count : Nat) : Worker × List Effect :=
  (Nat.repeat retire count (w.collect place),
    List.replicate count (.metric (.closed place.1)))

/-- The members found gone at all places are accounted for. -/
def pruneAll (w : Worker) : List ((Selector × UInt64) × Nat) → Worker × List Effect
  | [] => (w, [])
  | (place, count) :: rest =>
    let (w, effects) := w.prune place count
    let (w, more) := w.pruneAll rest
    (w, effects ++ more)

/-- A pass ends: its deliveries are counted and the members found gone are pruned. -/
def endPass (w : Worker) (pass : Pass) : Worker × List Effect :=
  { w with phase := .idle }.count pass.total |>.pruneAll pass.pruned

/-- The next channel of a pass is visited: if a value moved, pushing it begins. -/
def visit (w : Worker) (ev : Evaluator) (pass : Pass) (place : Selector × UInt64) : Worker :=
  match w.index.find? place.1 place.2 with
  | none => { w with phase := .visiting pass }
  | some c =>
    match c.last.refresh ev c.context with
    | (_, none) => { w with phase := .visiting pass }
    | (last, some m) =>
      { w with
        index := w.index.put place.1 place.2 { c with last }
        phase := .pushing pass ⟨place, m, [], c.members, .zero⟩ }

/-- The reports about the deliveries to one channel. -/
def report (selector : Selector) (t : Tally) : List Effect :=
  (if 0 < t.sent then [.metric (.sent t.sent selector)] else []) ++
    (if 0 < t.dropped then [.metric (.dropped t.dropped selector)] else [])

/-- A message reached every member of a channel: those who are still there are its members now. -/
def endPush (w : Worker) (pass : Pass) (push : Push) : Worker × List Effect :=
  let index := match w.index.find? push.place.1 push.place.2 with
    | none => w.index
    | some c => w.index.put push.place.1 push.place.2 { c with members := push.served }
  let pass : Pass :=
    { pass with
      total := pass.total + push.tally
      pruned := pass.pruned ++
        if 0 < push.tally.disconnected then [(push.place, push.tally.disconnected)] else [] }
  ({ w with index, phase := .visiting pass }, report push.place.1 push.tally)

/-- The next member of a channel is offered the message; the worker stalls if it has to wait for
room in its mailbox. -/
def deliver (w : Worker) (policy : DeliveryPolicy) (boxes : Mailboxes) (pass : Pass) (push : Push)
    (id : ConnectionId) (rest : List ConnectionId) : Result :=
  let m := push.message
  let boxes' := boxes.offer policy id.number m
  let next (served : List ConnectionId) (t : Tally) : Worker :=
    { w with phase := .pushing pass { push with served, waiting := rest, tally := push.tally + t } }
  match boxes.attempt policy id.number with
  | .waiting => ⟨{ w with phase := .stalled pass push }, boxes', []⟩
  | .sent => ⟨next (push.served ++ [id]) ⟨1, 0, 0⟩, boxes', [.placed id m]⟩
  | .dropped => ⟨next (push.served ++ [id]) ⟨0, 1, 0⟩, boxes', [.skipped id m]⟩
  | .disconnected => ⟨next push.served ⟨0, 0, 1⟩, boxes', []⟩

/-- Whether the next member of a push can be served without waiting. -/
def canResume (policy : DeliveryPolicy) (boxes : Mailboxes) (push : Push) : Bool :=
  push.waiting.head?.all fun id => boxes.attempt policy id.number ≠ .waiting

/-- One step of the pass that the worker is in the middle of. `none` if it has to wait, and outside
a pass. -/
def passStep? (w : Worker) (policy : DeliveryPolicy) (ev : Evaluator) (boxes : Mailboxes) :
    Option Result :=
  match w.phase with
  | .idle => none
  | .stopped => none
  | .stalled pass push =>
    if canResume policy boxes push then some ⟨{ w with phase := .pushing pass push }, boxes, []⟩
    else none
  | .visiting pass =>
    match pass.todo with
    | [] =>
      let (w, effects) := w.endPass pass
      some ⟨w, boxes, effects⟩
    | place :: rest => some ⟨w.visit ev { pass with todo := rest } place, boxes, []⟩
  | .pushing pass push =>
    match push.waiting with
    | [] =>
      let (w, effects) := w.endPush pass push
      some ⟨w, boxes, effects⟩
    | id :: rest => some (w.deliver policy boxes pass push id rest)

end Worker

end FlagFanout
