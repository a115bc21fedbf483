import FlagFanout.Fleet
import FlagFanout.Project.Registry

/-!
# Servers

A server has one stream for every project of a registry and finds it by the project's identifier or
by one of its access keys. What it knows of keys is a cache: every hit is checked against the
registry, and a key that the cache does not know is looked up there, so rotated keys work at once
and revoked ones stop working.

The registry's projects enter every function as the list of what it holds at that moment.
-/

namespace FlagFanout

/-- The streams of a server by project, and the access keys that it knows. -/
structure Server where
  config : StreamConfig
  /-- The stream of each project, by its serial number. -/
  byId : KeyMap String Nat
  /-- The project of each access key seen so far. -/
  byKey : KeyMap String String
  closed : Bool
  /-- The server's receiver of membership events, while it follows them. -/
  receiver : Option Nat

/-- A server together with the fleet of its streams. -/
structure Serving where
  server : Server
  fleet : Fleet

namespace Server

/-- A server without streams. -/
def ofConfig (config : StreamConfig) (receiver : Option Nat) : Server :=
  ⟨config, .empty, .empty, false, receiver⟩

/-- The keys of a project made known, and no others of it. -/
def indexKeys (s : Server) (p : Project) : Server :=
  let others := s.byKey.filter fun _ id => id ≠ p.id
  { s with byKey := p.keys.foldl (fun m key => m.insert key p.id) others }

/-- A project and its keys forgotten. -/
def forget (s : Server) (id : String) : Server :=
  { s with byId := s.byId.erase id, byKey := s.byKey.filter fun _ id' => id' ≠ id }

/-! ## Looking up -/

/-- The stream that the cache has for a key, with its project. -/
def cached? (s : Server) (key : String) : Option (String × Nat) :=
  (s.byKey.get? key).bind fun id => (s.byId.get? id).map (id, ·)

/-- The cache after a hit for `key` was not confirmed; `current` is what the registry has for the
project of the hit. -/
def evict (s : Server) (key : String) : Option Project → Server
  | some current => s.indexKeys current
  | none => { s with byKey := s.byKey.erase key }

/-- The stream of a project to which the registry gave a key; the keys of the project are known
then. -/
def accept (s : Server) (p : Project) : Option Nat × Server :=
  match s.byId.get? p.id with
  | none => (none, s)
  | some n => (some n, s.indexKeys p)

/-- The stream of the project to which the registry gives a key. -/
def resolve (s : Server) (projects : List Project) (key : String) : Option Nat × Server :=
  match Project.withKey? projects key with
  | none => (none, s)
  | some p => s.accept p

/-- The stream that a key gives access to. -/
def lookupKey (s : Server) (projects : List Project) (key : String) : Option Nat × Server :=
  match s.cached? key with
  | none => s.resolve projects key
  | some (id, n) =>
    let current := Project.withId? projects id
    if current.any (·.hasKey key) then (some n, s)
    else (s.evict key current).resolve projects key

/-- The identifiers of all projects that have a stream, in order. -/
def projectIds (s : Server) : List String := s.byId.keys

end Server

namespace Serving

/-- Starts a stream for a project, in place of the one it had; gives that back. -/
def spawn (v : Serving) (p : Project) : Option Nat × Serving :=
  let n := v.fleet.nextSerial
  (v.server.byId.get? p.id,
    { server := { v.server with byId := v.server.byId.insert p.id n }
      fleet := v.fleet.spawn p.id p.engine v.server.config })

/-- The keys of a project made known. -/
def indexKeys (v : Serving) (p : Project) : Serving :=
  { v with server := v.server.indexKeys p }

/-- Closes streams that left the server. -/
def retire (v : Serving) (serials : List Nat) : Serving :=
  { v with fleet := v.fleet.closeAll serials }

/-- A project gets a fresh stream; the one it had leaves, and is still to be closed. -/
def renew (v : Serving) (p : Project) : Serving × List Nat :=
  let (previous, v) := v.spawn p
  (v.indexKeys p, previous.toList)

/-- A project gets a fresh stream and the one it had is closed. -/
def replace (v : Serving) (p : Project) : Serving :=
  let (v, left) := v.renew p
  v.retire left

/-- A server over the projects of a registry. -/
def start (projects : List Project) (config : StreamConfig) (receiver : Option Nat)
    (fleet : Fleet) : Serving :=
  projects.foldl replace ⟨.ofConfig config receiver, fleet⟩

/-! ## Following the registry -/

/-- A project gets a stream if it has none. -/
def add (v : Serving) (p : Project) : Serving :=
  if v.server.byId.contains p.id then v.indexKeys p else ((v.spawn p).2).indexKeys p

/-- A project is forgotten; its stream leaves, and is still to be closed. -/
def release (v : Serving) (id : String) : Serving × List Nat :=
  ({ v with server := v.server.forget id }, (v.server.byId.get? id).toList)

/-- A project is forgotten and its stream closed. -/
def remove (v : Serving) (id : String) : Serving :=
  let (v, left) := v.release id
  v.retire left

/-- A membership event applied. It names a project only; what the project is now, the registry
tells. -/
def apply (v : Serving) (projects : List Project) : MembershipEvent → Serving
  | .added id => (Project.withId? projects id).elim v v.add
  | .removed id => v.remove id
  | .replaced id => (Project.withId? projects id).elim (v.remove id) v.replace

/-- Whether the stream of a project runs on the engine that the registry has for it. -/
def isCurrent (v : Serving) (p : Project) : Bool :=
  ((v.server.byId.get? p.id).bind v.fleet.stream?).any (·.engine = p.engine)

/-- A project brought in line with the registry: a stream on another engine is replaced; the
streams that left wait in a list to be closed. -/
def align (state : Serving × List Nat) (p : Project) : Serving × List Nat :=
  let (v, retired) := state
  if v.isCurrent p then (v.indexKeys p, retired)
  else
    let (v, left) := v.renew p
    (v, retired ++ left)

/-- The index brought in line with the whole registry, with the streams that leave it. -/
def realign (v : Serving) (projects : List Project) : Serving × List Nat :=
  let gone := v.server.byId.toList.filter fun e => (Project.withId? projects e.1).isNone
  let v' := { v with server := gone.foldl (fun s e => s.forget e.1) v.server }
  projects.foldl align (v', gone.map (·.2))

/-- The server brought in line with the whole registry. Streams that leave are closed at the end. -/
def reconcile (v : Serving) (projects : List Project) : Serving :=
  let (v, left) := v.realign projects
  v.retire left

/-- The server closed for good, with all its streams. -/
def close (v : Serving) : Serving :=
  if v.server.closed then v
  else
    { v with
      server := { v.server with byId := .empty, byKey := .empty, closed := true, receiver := none }
    }.retire v.server.byId.values

/-! ## Figures -/

/-- The figures of all streams of a server together. -/
structure Stats where
  streams : Nat
  openConnections : Nat
  channels : Nat
  sent : Nat
  dropped : Nat
  deriving DecidableEq, Repr, Inhabited

/-- The figures of one more stream added. -/
def Stats.add (t : Stats) (c : Counters) : Stats :=
  ⟨t.streams + 1, t.openConnections + c.openConnections, t.channels + c.channels,
    t.sent + c.sent, t.dropped + c.dropped⟩

/-- The figures of the server. -/
def stats (v : Serving) : Stats :=
  (v.server.byId.values.filterMap v.fleet.stream?).foldl (fun t s => t.add s.worker.counters)
    ⟨0, 0, 0, 0, 0⟩

end Serving

end FlagFanout
