import FlagFanout.Session.Op
import FlagFanout.Stream.MetricLine

/-!
# The state of a session

A session holds engines and streams, at most one registry and one server, and names for streams,
connections, receivers and watchers. Nothing runs in the background by itself: `Session.settle`
lets the server take the events that wait and then every worker run until it stands still.

A stream is held by the server and by names. One that is held no more is closed, and a server that
was dropped holds its streams until it notices, which is when the session settles next.
-/

namespace FlagFanout

/-- Engines, registry, server and streams, and the names under which they are held. -/
structure Session where
  /-- The configuration of servers, and of streams that have none of their own. -/
  config : StreamConfig
  fleet : Fleet
  registry : Option Registry
  server : Option Server
  /-- Servers that were dropped while they followed the registry. -/
  lingering : List Server
  streams : KeyMap String Nat
  connections : KeyMap String Connection
  /-- Receivers of change signals: the engine, and the place there. -/
  receivers : KeyMap String (String × Nat)
  /-- Receivers of membership events. -/
  watchers : KeyMap String Nat
  /-- For each stream the groups of contexts that were seen, in order. -/
  groups : KeyMap Nat (List UInt64)
  /-- Whether reports to the metrics are discarded. -/
  quiet : Bool
  /-- The lines of metrics since they were last asked for. -/
  lines : List String

namespace Session

/-- A session that has done nothing yet. -/
def start (config : StreamConfig) (fleet : Fleet) (registry : Option Registry) (quiet : Bool) :
    Session :=
  ⟨config, fleet, registry, none, [], .empty, .empty, .empty, .empty, .empty, quiet, []⟩

/-! ## Holding -/

/-- The serial numbers of all streams that are held. -/
def held (s : Session) : List Nat :=
  s.streams.values ++ (s.server.toList ++ s.lingering).flatMap fun v => v.byId.values

/-- Closes the streams that are not held. -/
def release (s : Session) : Session := { s with fleet := s.fleet.closeUnheld s.held }

/-- The stream of a name. -/
def stream? (s : Session) (name : String) : Option Stream :=
  (s.streams.get? name).bind s.fleet.stream?

/-- The session with a stream held under a name. -/
def hold (s : Session) (name : String) (serial : Nat) : Session :=
  { s with streams := s.streams.insert name serial }

/-- The names under which a stream is held. -/
def namesOf (s : Session) (serial : Nat) : List String :=
  (s.streams.toList.filter (·.2 = serial)).map (·.1)

/-- The session with an engine written. -/
def setEngine (s : Session) (name : String) (e : Engine) : Session :=
  { s with fleet := s.fleet.setEngine name e }

/-- The session with a stream written. -/
def setStream (s : Session) (stream : Stream) : Session :=
  { s with fleet := s.fleet.setStream stream }

/-- The session with its broadcast of events changed. -/
def withEvents (s : Session) (f : Broadcast MembershipEvent → Broadcast MembershipEvent) :
    Session :=
  { s with registry := s.registry.map (·.withEvents f) }

/-- The server with its registry, if there are both. -/
def deployment? (s : Session) : Option Deployment :=
  match s.registry, s.server with
  | some registry, some server => some ⟨registry, server, s.fleet⟩
  | _, _ => none

/-- The session with its server, registry and streams written. -/
def deploy (s : Session) (d : Deployment) : Session :=
  { s with
    registry := some d.registry
    server := some d.serving.server
    fleet := d.serving.fleet }

/-- Forgets the server. One that follows the registry lingers until it notices. -/
def dropServer (s : Session) : Session :=
  match s.server with
  | none => s
  | some v =>
    { s with
      server := none
      lingering := if v.receiver.isSome then s.lingering ++ [v] else s.lingering }

/-! ## Settling -/

/-- The lines of the reports among the effects of a stream. -/
def linesOf (fleet : Fleet) (serial : Nat) (effects : List Effect) : List String :=
  match fleet.stream? serial with
  | none => []
  | some s =>
    effects.filterMap fun
      | .metric m => some (m.line s.project s.config.serverType)
      | _ => none

/-- The server takes all events that wait. -/
def follow (s : Session) : Session :=
  s.deployment?.elim s fun d => s.deploy d.follow

/-- Servers that were dropped notice it and let their streams go. -/
def dropLingering (s : Session) : Session :=
  let receivers := s.lingering.filterMap (·.receiver)
  { s with lingering := [] }.withEvents fun b => receivers.foldl Broadcast.drop b

/-- Every worker runs until it stands still. -/
def runWorkers (s : Session) : Session :=
  let (fleet, done) := s.fleet.settle
  let lines := done.flatMap fun r => linesOf fleet r.1 r.2
  { s with fleet, lines := if s.quiet then [] else s.lines ++ lines }

/-- Everything in the background runs until nothing is left to do. -/
def settle (s : Session) : Session := s.follow.dropLingering.release.runWorkers

/-! ## Reports -/

/-- What a session shows of itself after an operation. -/
structure Report where
  lines : List String
  streams : List (String × Counters)
  server : Option Serving.Stats

/-- The figures of the server. -/
def serverStats? (s : Session) : Option Serving.Stats :=
  s.server.map fun v => Serving.stats ⟨v, s.fleet⟩

/-- What a session shows of itself, its lines sorted unless their order is asked for; the lines
are then gone. -/
def report (s : Session) (ordered : Bool) : Report × Session :=
  let lines := if ordered then s.lines else s.lines.mergeSort fun a b => a ≤ b
  let streams := s.streams.toList.filterMap fun e =>
    (s.fleet.stream? e.2).map fun stream => (e.1, stream.worker.counters)
  (⟨lines, streams, s.serverStats?⟩, { s with lines := [] })

end Session

end FlagFanout
