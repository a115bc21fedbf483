import FlagFanout.Session.State

/-!
# Carrying out operations

`Session.perform` carries out one operation and gives its answer; streams that nobody holds any
more are closed with it. Background work is left for `Session.settle`, but for four operations that
have to wait for it: opening and closing a connection while the queue of commands is full,
receiving from a mailbox that is empty and not at its end, and closing a server that follows the
registry.
-/

namespace FlagFanout.Session

/-! ## Engines -/

/-- An operation that writes an engine and has nothing to say. -/
def onEngine (s : Session) (engine : String) (f : Engine → Engine) : Answer × Session :=
  (.done, s.setEngine engine (f (s.fleet.engine engine)))

/-- An operation that writes an engine and answers yes or no. -/
def askEngine (s : Session) (engine : String) (f : Engine → Bool × Engine) : Answer × Session :=
  let (b, e) := f (s.fleet.engine engine)
  (.yesNo b, s.setEngine engine e)

/-- The receiver of a name is dropped, and whether there was one. -/
def dropReceiver (s : Session) (name : String) : Bool × Session :=
  match s.receivers.get? name with
  | none => (false, s)
  | some (engine, place) =>
    (true,
      { s.setEngine engine ((s.fleet.engine engine).dropReceiver place) with
        receivers := s.receivers.erase name })

/-- A subscription is taken and its receiver held under a name. -/
def subscribe (s : Session) (engine subscriber receiver : String) : Session :=
  let s := (s.dropReceiver receiver).2
  let e := s.fleet.engine engine
  { s.setEngine engine (e.subscribe (.client subscriber)) with
    receivers := s.receivers.insert receiver (engine, e.signals.nextReceiver) }

/-- A receiver is asked for a signal. -/
def pollReceiver (s : Session) (name : String) : Answer × Session :=
  match s.receivers.get? name with
  | none => (.unknown, s)
  | some (engine, place) =>
    let (found, e) := (s.fleet.engine engine).poll place
    (.polled found, s.setEngine engine e)

/-! ## The registry -/

/-- An operation that writes the registry. -/
def onRegistry {α : Type} (s : Session) (answer : α → Answer) (f : Registry → α × Registry) :
    Answer × Session :=
  match s.registry with
  | none => (.unknown, s)
  | some r =>
    let (a, r) := f r
    (answer a, { s with registry := some r })

/-- A question to the registry. -/
def askRegistry (s : Session) (f : Registry → Answer) : Answer × Session :=
  (s.registry.elim .unknown f, s)

/-- The size of a registry that has one. -/
def registrySize : Registry → Answer
  | .memory r => .size r.projects.size r.isDynamic
  | .list _ => .unknown

/-- Events are heard from now on under a name. -/
def watch (s : Session) (name : String) : Answer × Session :=
  match s.registry with
  | none => (.unknown, s)
  | some r =>
    match r.listen with
    | (none, r) => (.yesNo false, { s with registry := some r })
    | (some n, r) =>
      let old := s.watchers.get? name
      let s := { s with registry := some r, watchers := s.watchers.insert name n }
      (.yesNo true, old.elim s fun n => s.withEvents (·.drop n))

/-- A watcher is asked for an event. -/
def pollWatcher (s : Session) (name : String) : Answer × Session :=
  match s.watchers.get? name with
  | none => (.unknown, s)
  | some n => s.onRegistry .heard (·.hear n)

/-- An event is sent by hand; only lists know such events. -/
def fire (e : MembershipEvent) : Registry → Nat × Registry
  | .list ⟨projects, some b⟩ => (b.send e).map (·) fun b => .list ⟨projects, some b⟩
  | r => (0, r)

/-- The events of a list end, and whether they had not before. -/
def endEvents : Registry → Bool × Registry
  | .list ⟨projects, some b⟩ => (!b.ended, .list ⟨projects, some b.finish⟩)
  | r => (false, r)

/-! ## The server -/

/-- A server over the registry, in place of the one there was. -/
def startServer (s : Session) : Answer × Session :=
  match s.registry with
  | none => (.unknown, s)
  | some r => (.done, s.dropServer.deploy (.start r s.config s.fleet))

/-- The answer to a search for a stream, which is then held under a name if one is given. -/
def found (s : Session) (serial : Option Nat) (name : Option String) : Answer × Session :=
  match serial.bind s.fleet.stream? with
  | none => (.found none, s)
  | some stream =>
    (.found (some (stream.project, s.namesOf stream.serial)),
      name.elim s fun name => s.hold name stream.serial)

/-- The stream of a project is searched by the project's identifier. -/
def find (s : Session) (id : String) (name : Option String) : Answer × Session :=
  match s.server with
  | none => (.unknown, s)
  | some v => s.found (v.byId.get? id) name

/-- The stream of a project is searched by an access key. -/
def findByKey (s : Session) (key : String) (name : Option String) : Answer × Session :=
  match s.registry, s.server with
  | some r, some v =>
    let (serial, v) := v.lookupKey r.projects key
    { s with server := some v }.found serial name
  | _, _ => (.unknown, s)

/-- The server stops following the registry. Until it has, everything else in the background
runs; a server that follows nothing need not wait. -/
def stopFollowing (s : Session) : Session :=
  match s.deployment? with
  | none => s
  | some d => if d.serving.server.receiver.isNone then s else (s.deploy d.unfollow).settle

/-- The server is closed. -/
def closeServer (s : Session) : Answer × Session :=
  let s := s.stopFollowing
  s.deployment?.elim (.unknown, s) fun d => (.done, s.deploy d.close)

/-- A question to the server. -/
def askServer (s : Session) (f : Server → Answer) : Answer × Session :=
  (s.server.elim .unknown f, s)

/-! ## Streams -/

/-- A question to a stream and its engine. -/
def askStream (s : Session) (name : String) (f : Stream → Engine → Answer) : Answer × Session :=
  ((s.stream? name).elim .unknown fun stream => f stream (s.fleet.engine stream.engine), s)

/-- A stream is started and held under a name. -/
def spawn (s : Session) (name project engine : String) (config : Option StreamConfig) : Session :=
  { s with fleet := s.fleet.spawn project engine (config.getD s.config) }.hold name
    s.fleet.nextSerial

/-! ## Connections -/

/-- The connection of a name is dropped, and whether there was one. -/
def dropConnection (s : Session) (name : String) : Bool × Session :=
  match s.connections.get? name with
  | none => (false, s)
  | some c =>
    let s := { s with connections := s.connections.erase name }
    (true,
      (s.fleet.stream? c.id.stream).elim s fun stream => s.setStream (stream.dropReceiver c.id))

/-- The group of a connection among those of its stream, a new one if it was not seen before. -/
def groupOf (s : Session) (c : Connection) : Nat × Session :=
  if c.discriminator = 0 then (0, s)
  else
    let seen := (s.groups.get? c.id.stream).getD []
    match seen.idxOf? c.discriminator with
    | some i => (i + 1, s)
    | none =>
      (seen.length + 1,
        { s with groups := s.groups.insert c.id.stream (seen ++ [c.discriminator]) })

/-- One attempt to open a connection. -/
def tryConnect (s : Session) (streamName name : String) (selector : Selector)
    (context : Option Context) : Answer × Session :=
  match s.stream? streamName with
  | none => (.unknown, s)
  | some stream =>
    match stream.connect? selector context with
    | none => (.blocked, s)
    | some (c, stream) =>
      let s := ((s.setStream stream).dropConnection name).2
      let (group, s) := { s with connections := s.connections.insert name c }.groupOf c
      (.connected selector group, s)

/-- One attempt to close a connection. -/
def tryDisconnect (s : Session) (streamName name : String) : Answer × Session :=
  match s.stream? streamName, s.connections.get? name with
  | some stream, some c =>
    (stream.disconnect? c).elim (.blocked, s) fun stream => (.done, s.setStream stream)
  | _, _ => (.unknown, s)

/-- An attempt that is made again after settling if it was blocked. -/
def retrying (s : Session) (attempt : Session → Answer × Session) : Answer × Session :=
  match attempt s with
  | (.blocked, s) => attempt s.settle
  | r => r

/-- A connection looks into its mailbox. -/
def look (s : Session) (name : String) : Option (Receipt × Session) :=
  (s.connections.get? name).bind fun c =>
    (s.fleet.stream? c.id.stream).map fun stream =>
      let (r, stream) := stream.receive c.id
      (r, s.setStream stream)

/-- A connection looks into its mailbox; if nothing is there and its end neither, it looks again
after settling. -/
def receive (s : Session) (name : String) : Answer × Session :=
  let answer (seen : Option (Receipt × Session)) : Answer × Session :=
    seen.elim (.unknown, s) fun (r, s) => (.receipt r, s)
  match s.look name with
  | some (.empty, s) => answer (s.settle.look name)
  | seen => answer seen

/-- Everything in a mailbox, and what is found behind it; at most `n` messages. -/
def drain (s : Session) (name : String) : Nat → List Receipt × Session
  | 0 => ([], s)
  | n + 1 =>
    match s.look name with
    | none => ([], s)
    | some (.message m, s) =>
      let (rest, s) := s.drain name n
      (.message m :: rest, s)
    | some (r, s) => ([r], s)

/-- The number of messages that wait for a connection. -/
def waiting (s : Session) (name : String) : Nat :=
  ((s.connections.get? name).bind fun c =>
    (s.fleet.stream? c.id.stream).bind (·.mailboxes.get? c.id.number)).elim 0 (·.messages.length)

/-! ## All operations -/

/-- One operation, before the streams that it set free are closed. -/
def carryOut (s : Session) : Op → Answer × Session
  | .setFlag engine flag => s.onEngine engine (·.setFlag flag)
  | .replaceFlags engine flags => s.onEngine engine (·.replaceFlags flags)
  | .removeFlag engine key => s.askEngine engine (·.removeFlag key)
  | .publish engine => s.onEngine engine (·.publish)
  | .fail engine key => s.askEngine engine (·.fail key)
  | .restore engine key => s.askEngine engine (·.restore key)
  | .evaluate engine key context => (.evaluation ((s.fleet.engine engine).evaluate key context), s)
  | .evaluateAll engine context => (.evaluations ((s.fleet.engine engine).evaluateAll context), s)
  | .keys engine => (.texts (s.fleet.engine engine).store.keys, s)
  | .isReady engine => (.yesNo (s.fleet.engine engine).store.isReady, s)
  | .subscriberCount engine => (.number (s.fleet.engine engine).signals.subscriberCount, s)
  | .subscribe engine subscriber receiver => (.done, s.subscribe engine subscriber receiver)
  | .unsubscribe engine subscriber => s.onEngine engine (·.unsubscribe (.client subscriber))
  | .pollReceiver receiver => s.pollReceiver receiver
  | .dropReceiver receiver => (s.dropReceiver receiver).map .yesNo id
  | .addProject p => s.onRegistry .yesNo (·.add p)
  | .removeProject id => s.onRegistry .project (·.remove id)
  | .replaceEngine id engine => s.onRegistry .yesNo (·.replaceEngine id engine)
  | .setKeys id keys => s.onRegistry .yesNo (·.setKeys id keys)
  | .getProject id => s.askRegistry fun r => .project (Project.withId? r.projects id)
  | .getProjectByKey key => s.askRegistry fun r => .project (Project.withKey? r.projects key)
  | .listProjects =>
    s.askRegistry fun r => .texts ((r.projects.map (·.id)).mergeSort fun a b => a ≤ b)
  | .registrySize => s.askRegistry registrySize
  | .watch watcher => s.watch watcher
  | .pollWatcher watcher => s.pollWatcher watcher
  | .fire event => s.onRegistry .number (fire event)
  | .endEvents => s.onRegistry .yesNo endEvents
  | .startServer => s.startServer
  | .find id name => s.find id name
  | .findByKey key name => s.findByKey key name
  | .projectIds => s.askServer fun v => .texts v.projectIds
  | .serverStats => (s.serverStats?.elim .unknown .serverStats, s)
  | .closeServer => s.closeServer
  | .isServerClosed => s.askServer fun v => .yesNo v.closed
  | .dropServer => (.yesNo s.server.isSome, s.dropServer)
  | .spawn stream project engine config => (.done, s.spawn stream project engine config)
  | .closeStream name =>
    match s.streams.get? name with
    | none => (.unknown, s)
    | some serial => (.done, { s with fleet := s.fleet.close serial })
  | .isStreamClosed name => s.askStream name fun stream _ => .streamClosed stream.closed
  | .dropStream name =>
    (.yesNo (s.streams.contains name), { s with streams := s.streams.erase name })
  | .isStreamValid name => s.askStream name fun stream e => .yesNo (stream.isValid e)
  | .canEvaluate name key => s.askStream name fun _ e => .yesNo (Stream.canEvaluate e key)
  | .streamStats name =>
    s.askStream name fun stream _ => .streamStats stream.project stream.worker.counters
  | .connect stream connection selector context =>
    s.retrying fun s => s.tryConnect stream connection selector context
  | .disconnect stream connection => s.retrying fun s => s.tryDisconnect stream connection
  | .dropConnection connection => (s.dropConnection connection).map .yesNo id
  | .receive connection => s.receive connection
  | .tryReceive connection => (s.look connection).elim (.unknown, s) fun (r, s) => (.receipt r, s)
  | .drain connection =>
    let (l, s) := s.drain connection (s.waiting connection + 1)
    (.receipts l, s)
  | .settle => (.done, s)

/-- One operation carried out. -/
def perform (s : Session) (op : Op) : Answer × Session :=
  let (answer, s) := s.carryOut op
  (answer, s.release)

end FlagFanout.Session
