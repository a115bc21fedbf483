import FlagFanout.KeyMap
import FlagFanout.Project.Basic
import FlagFanout.Project.Broadcast

/-!
# Registries of projects

`MemoryRegistry` holds projects under their identifiers. A dynamic registry broadcasts every
addition, removal and replacement; a fixed one goes through the same states in silence. Rotating
the keys of a project is no change of membership and is not broadcast.

`ProjectList` is a plain list in which an identifier may stand more than once; the first one is
found, and its events, if it has any, are sent by hand.
-/

namespace FlagFanout

/-! ## Projects under their identifiers -/

/-- Projects by identifier, with a broadcast of membership events if the registry is dynamic. -/
structure MemoryRegistry where
  projects : KeyMap String Project
  events : Option (Broadcast MembershipEvent)

namespace MemoryRegistry

/-- The number of events that a dynamic registry retains. -/
def eventCapacity : Nat := 64

/-- Projects by identifier; of several with one identifier the last stands. -/
def byId (projects : List Project) : KeyMap String Project :=
  KeyMap.ofList (projects.map fun p => (p.id, p))

/-- A registry that broadcasts nothing. -/
def fixed (projects : List Project) : MemoryRegistry := ⟨byId projects, none⟩

/-- A registry that broadcasts every change of membership. -/
def dynamic (projects : List Project) : MemoryRegistry :=
  ⟨byId projects, some (.ofCapacity eventCapacity)⟩

/-- Whether membership events are broadcast. -/
def isDynamic (r : MemoryRegistry) : Bool := r.events.isSome

/-- Broadcasts an event. -/
def publish (r : MemoryRegistry) (e : MembershipEvent) : MemoryRegistry :=
  { r with events := r.events.map fun b => (b.send e).2 }

/-- Adds a project; false if the identifier is taken. -/
def add (r : MemoryRegistry) (p : Project) : Bool × MemoryRegistry :=
  if r.projects.contains p.id then (false, r)
  else (true, { r with projects := r.projects.insert p.id p }.publish (.added p.id))

/-- Removes a project and gives it back. -/
def remove (r : MemoryRegistry) (id : String) : Option Project × MemoryRegistry :=
  match r.projects.get? id with
  | none => (none, r)
  | some p => (some p, { r with projects := r.projects.erase id }.publish (.removed id))

/-- Lets a project run on another engine; its keys stay. False if there is no such project. -/
def replaceEngine (r : MemoryRegistry) (id engine : String) : Bool × MemoryRegistry :=
  match r.projects.get? id with
  | none => (false, r)
  | some p =>
    (true, { r with projects := r.projects.insert id { p with engine } }.publish (.replaced id))

/-- Gives a project other access keys. False if there is no such project. -/
def setKeys (r : MemoryRegistry) (id : String) (keys : List String) : Bool × MemoryRegistry :=
  match r.projects.get? id with
  | none => (false, r)
  | some p => (true, { r with projects := r.projects.insert id { p with keys } })

end MemoryRegistry

/-! ## Projects in a list -/

/-- Projects in the order in which they were added. -/
structure ProjectList where
  projects : List Project
  events : Option (Broadcast MembershipEvent)

namespace ProjectList

/-- A list without events. -/
def silent (projects : List Project) : ProjectList := ⟨projects, none⟩

/-- The number of events that are retained when they are sent by hand. -/
def eventCapacity : Nat := 4

/-- A list whose events are sent by hand. -/
def manual (projects : List Project) : ProjectList :=
  ⟨projects, some (.ofCapacity eventCapacity)⟩

/-- Adds a project behind the others. -/
def add (l : ProjectList) (p : Project) : ProjectList :=
  { l with projects := l.projects ++ [p] }

/-- The list with the first project of an identifier changed, or dropped where `f` gives none. -/
def modifyFirst (f : Project → Option Project) (id : String) : List Project → List Project
  | [] => []
  | p :: rest => if p.id = id then (f p).toList ++ rest else p :: modifyFirst f id rest

/-- The first project of an identifier and the list with it changed. -/
def change (l : ProjectList) (id : String) (f : Project → Option Project) :
    Option Project × ProjectList :=
  (Project.withId? l.projects id, { l with projects := modifyFirst f id l.projects })

end ProjectList

/-! ## Either kind -/

/-- A registry of either kind. -/
inductive Registry where
  | memory (r : MemoryRegistry)
  | list (l : ProjectList)

namespace Registry

/-- The projects in the order in which the registry enumerates them. -/
def projects : Registry → List Project
  | memory r => r.projects.values
  | list l => l.projects

/-- The membership events, if there are any. -/
def events : Registry → Option (Broadcast MembershipEvent)
  | memory r => r.events
  | list l => l.events

/-- The registry with its broadcast changed. -/
def withEvents (f : Broadcast MembershipEvent → Broadcast MembershipEvent) : Registry → Registry
  | memory r => memory { r with events := r.events.map f }
  | list l => list { l with events := l.events.map f }

/-- Adds a project; false if the identifier is taken. -/
def add (p : Project) : Registry → Bool × Registry
  | memory r => (r.add p).map (·) memory
  | list l => (true, list (l.add p))

/-- Removes a project and gives it back. -/
def remove (id : String) : Registry → Option Project × Registry
  | memory r => (r.remove id).map (·) memory
  | list l => (l.change id fun _ => none).map (·) list

/-- Lets a project run on another engine. -/
def replaceEngine (id engine : String) : Registry → Bool × Registry
  | memory r => (r.replaceEngine id engine).map (·) memory
  | list l => (l.change id fun p => some { p with engine }).map (·.isSome) list

/-- Gives a project other access keys. -/
def setKeys (id : String) (keys : List String) : Registry → Bool × Registry
  | memory r => (r.setKeys id keys).map (·) memory
  | list l => (l.change id fun p => some { p with keys }).map (·.isSome) list

/-- A new receiver of membership events, by its number. `none` if there is no broadcast, or it
ended. -/
def listen (r : Registry) : Option Nat × Registry :=
  match r.events with
  | some b => if b.ended then (none, r) else (some b.nextReceiver, r.withEvents (·.listen))
  | none => (none, r)

/-- What a receiver of membership events finds. -/
def hear (r : Registry) (receiver : Nat) : Heard MembershipEvent × Registry :=
  match r.events with
  | some b => ((b.hear receiver).1, r.withEvents fun b => (b.hear receiver).2)
  | none => (.ended, r)

end Registry

end FlagFanout
