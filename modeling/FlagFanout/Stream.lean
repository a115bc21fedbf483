import FlagFanout.Config.Layer
import FlagFanout.Context.Fingerprint
import FlagFanout.Stream.Worker

/-!
# Streams

A stream fans the evaluations of one project out to its connections. It subscribes to the changes
of an engine and owns a worker; connections are opened and closed by commands that wait in a queue
of limited length until the worker takes them.

`Stream.step?` is one step of the worker. It stands still exactly when there is nothing to do or it
has to wait for room in a mailbox; `Stream.settle` runs it until then. A worker takes notice of the
end of its stream when it is between two jobs, and while it waits.
-/

namespace FlagFanout

/-- The fan-out of one project's flags. -/
structure Stream where
  /-- The number by which the stream is told from all others. -/
  serial : Nat
  project : String
  /-- The engine that the stream subscribed to. -/
  engine : String
  /-- The place of its receiver among those of the engine. -/
  receiver : Nat
  config : StreamConfig
  /-- The hash by which contexts are grouped. -/
  digest : List UInt8 → UInt64
  closed : Bool
  queue : List Command
  mailboxes : Mailboxes
  worker : Worker
  deriving Inhabited

/-- A client's end of a stream. -/
structure Connection where
  id : ConnectionId
  selector : Selector
  /-- The number by which the context was grouped; 0 without one. -/
  discriminator : UInt64
  deriving DecidableEq, Repr

/-- What a connection finds in its mailbox. -/
inductive Receipt where
  | message (m : Message)
  | empty
  /-- Nothing is left and nothing will come. -/
  | ended
  deriving DecidableEq

namespace Stream

/-- The stream's subscription to its engine. -/
def subscriber (s : Stream) : Subscriber := .stream s.serial

/-! ## Opening and closing -/

/-- A new stream, with the engine that it subscribed to. -/
def start (serial : Nat) (project engineName : String) (config : StreamConfig)
    (digest : List UInt8 → UInt64) (e : Engine) : Stream × Engine :=
  ({ serial
     project
     engine := engineName
     receiver := e.signals.nextReceiver
     config
     digest
     closed := false
     queue := []
     mailboxes := default
     worker := .idle },
    e.subscribe (.stream serial))

/-- The stream is closed and its subscription ends; closing it again does nothing. -/
def close (s : Stream) (e : Engine) : Stream × Engine :=
  if s.closed then (s, e) else ({ s with closed := true }, e.unsubscribe s.subscriber)

/-- Whether the stream is open and its engine can evaluate. -/
def isValid (s : Stream) (e : Engine) : Bool := !s.closed && e.store.isReady

/-- Whether the engine has a flag of this key. -/
def canEvaluate (e : Engine) (key : String) : Bool := e.store.keys.contains key

/-! ## Connections -/

/-- Whether the queue of commands has no room. -/
def queueFull (s : Stream) : Bool := s.config.commandQueueCapacity ≤ s.queue.length

/-- The connection that is opened next. -/
def nextConnection (s : Stream) (selector : Selector) (context : Option Context) : Connection :=
  ⟨⟨s.serial, s.mailboxes.next⟩, selector, Context.discriminator? s.digest context⟩

/-- Opens a connection. It is registered once the worker takes the command; on a closed stream it
never is. `none` if the queue has no room. -/
def connect? (s : Stream) (selector : Selector) (context : Option Context) :
    Option (Connection × Stream) :=
  let c := s.nextConnection selector context
  let mailboxes := s.mailboxes.add s.config.mailboxCapacity
  if s.closed then some (c, { s with mailboxes })
  else if s.queueFull then none
  else
    let command := .established c.id selector c.discriminator context
    some (c, { s with mailboxes, queue := s.queue ++ [command] })

/-- Asks for a connection to be closed; on a closed stream nothing happens. `none` if the queue has
no room. -/
def disconnect? (s : Stream) (c : Connection) : Option Stream :=
  if s.closed then some s
  else if s.queueFull then none
  else some { s with queue := s.queue ++ [.closed c.id c.selector c.discriminator] }

/-- Whether the stream still holds the sending end of a mailbox: in a command that waits, or as a
member of a channel. -/
def holds (s : Stream) (id : ConnectionId) : Bool :=
  s.queue.any (fun
    | .established id' _ _ _ => id' = id
    | .closed _ _ _ => false) ||
  s.worker.index.members.contains id

/-- A connection looks into its mailbox. -/
def receive (s : Stream) (id : ConnectionId) : Receipt × Stream :=
  match s.mailboxes.get? id.number with
  | some ⟨_, m :: rest, _⟩ =>
    (.message m,
      { s with mailboxes := s.mailboxes.modify id.number fun b => { b with messages := rest } })
  | _ => (if s.holds id then .empty else .ended, s)

/-- The receiving end of a connection is dropped, with what waits in its mailbox. -/
def dropReceiver (s : Stream) (id : ConnectionId) : Stream :=
  { s with
    mailboxes := s.mailboxes.modify id.number fun b =>
      { b with listening := false, messages := [] } }

/-! ## The worker -/

/-- A stream and its engine after a step, with what else the step did. -/
structure Step where
  engine : Engine
  stream : Stream
  effects : List Effect

/-- The stream with what a step of its worker changed. -/
def withResult (s : Stream) (r : Worker.Result) : Stream :=
  { s with worker := r.worker, mailboxes := r.mailboxes }

/-- The worker stops: all channels and all commands that wait are given up. -/
def stop (s : Stream) : Stream := { s with worker := s.worker.stop, queue := [] }

/-- A pass begins over the channels at the given places, if a change was signalled. -/
def beginPass? (e : Engine) (s : Stream) (places : List (Selector × UInt64)) : Option Step :=
  match e.poll s.receiver with
  | (.signal, e) => some ⟨e, { s with worker := s.worker.beginPass places }, []⟩
  | _ => none

/-- The next job of a worker between two jobs: a command, or a pass if a change was signalled. -/
def nextJob? (e : Engine) (s : Stream) : Option Step :=
  match s.queue with
  | command :: rest =>
    (s.worker.handle s.config.delivery e.evaluator s.mailboxes command).map fun r =>
      ⟨e, { s.withResult r with queue := rest }, r.effects⟩
  | [] => beginPass? e s s.worker.index.places

/-- The next step of a pass. -/
def nextPassStep? (e : Engine) (s : Stream) : Option Step :=
  (s.worker.passStep? s.config.delivery e.evaluator s.mailboxes).map fun r =>
    ⟨e, s.withResult r, r.effects⟩

/-- Whether the worker looks out for the end of its stream: between two jobs, and while it waits. -/
def attentive (s : Stream) : Bool :=
  match s.worker.phase with
  | .idle => true
  | .stalled _ _ => true
  | _ => false

/-- One step of the worker; `none` if there is nothing to do or it has to wait. -/
def step? (e : Engine) (s : Stream) : Option Step :=
  if s.closed && s.attentive then some ⟨e, s.stop, []⟩
  else
    match s.worker.phase with
    | .stopped => none
    | .idle => nextJob? e s
    | _ => nextPassStep? e s

/-- At most so many steps are left until the worker stands still, if nobody else does anything:
every command may add a channel and a member, a pass visits every channel and every member, and
the worker stalls at most once. -/
def stepsLeft (s : Stream) : Nat :=
  let commands := s.queue.length
  let members := s.worker.index.members.length + commands
  let channels := s.worker.index.count + commands
  let passLeft := match s.worker.phase with
    | .visiting pass => pass.todo.length * (members + 2) + 1
    | .pushing pass push => push.waiting.length + pass.todo.length * (members + 2) + 2
    | .stalled pass push => push.waiting.length + pass.todo.length * (members + 2) + 3
    | _ => 0
  passLeft + commands + channels * (members + 2) + 4

/-- At most `n` steps of the worker. -/
def run (e : Engine) (s : Stream) : Nat → Step
  | 0 => ⟨e, s, []⟩
  | n + 1 =>
    match step? e s with
    | none => ⟨e, s, []⟩
    | some next =>
      let last := run next.engine next.stream n
      { last with effects := next.effects ++ last.effects }

/-- Steps of the worker until it stands still. -/
def settle (e : Engine) (s : Stream) : Step := run e s s.stepsLeft

end Stream

end FlagFanout
