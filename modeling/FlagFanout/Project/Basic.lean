import FlagFanout.KeyMap
import FlagFanout.Text.Quoted

/-!
# Projects

A project is one evaluation engine under an identifier, with access keys that clients may use
instead of the identifier. A list of projects, in the order in which a registry enumerates them, is
all that a server needs to know of a registry at one moment.
-/

namespace FlagFanout

/-- A configured project. -/
structure Project where
  id : String
  /-- The access keys that clients may use instead of the identifier. -/
  keys : List String
  /-- The engine that evaluates the project's flags. -/
  engine : String
  deriving DecidableEq, Repr, Inhabited

namespace Project

/-- Whether a key gives access to the project. -/
def hasKey (p : Project) (key : String) : Bool := p.keys.contains key

/-- The project in brief, without giving its keys away. -/
def describe (p : Project) : String :=
  "Project \x7b id: ProjectId(" ++ quoted p.id ++ "), keys: " ++
    String.ofList (Nat.toDigits 10 p.keys.length) ++ ", .. \x7d"

/-- The first project with an identifier. -/
def withId? (projects : List Project) (id : String) : Option Project :=
  projects.find? (·.id = id)

/-- The first project to which a key gives access. -/
def withKey? (projects : List Project) (key : String) : Option Project :=
  projects.find? (·.hasKey key)

/-- Identifiers in order, each of them once. -/
def sortIds (ids : List String) : List String := (KeyMap.ofList (ids.map (·, ()))).keys

end Project

/-- A change in the set of projects. -/
inductive MembershipEvent where
  | added (id : String)
  | removed (id : String)
  /-- The project runs on another engine now. -/
  | replaced (id : String)
  deriving DecidableEq, Repr

namespace MembershipEvent

/-- The project that is concerned. -/
def projectId : MembershipEvent → String
  | added id => id
  | removed id => id
  | replaced id => id

end MembershipEvent

end FlagFanout
