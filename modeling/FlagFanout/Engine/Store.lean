import FlagFanout.Flag.Evaluation
import FlagFanout.KeyMap

/-!
# Flags held in memory

A store holds flag definitions by key, once it has been configured, and default attributes that
are laid under the context of every request. `FlagStore.evaluate` serves one flag,
`FlagStore.evaluateAll` serves every flag; a store that was never configured serves nothing.
-/

namespace FlagFanout

/-- Flag definitions by key, if any were ever installed, and default attributes. -/
structure FlagStore where
  flags : Option (KeyMap String Flag)
  defaults : Option Context
  deriving Inhabited

namespace FlagStore

/-- Flags by their own key; of several with one key the last stands. -/
def byKey (flags : List Flag) : KeyMap String Flag :=
  KeyMap.ofList (flags.map fun f => (f.key, f))

/-- A store that was never configured. -/
def unconfigured : FlagStore := ⟨none, none⟩

/-- A configured store without default attributes. -/
def ofFlags (flags : List Flag) : FlagStore := ⟨some (byKey flags), none⟩

/-! ## Writing -/

/-- The store with its whole configuration replaced. -/
def replaceFlags (s : FlagStore) (flags : List Flag) : FlagStore :=
  { s with flags := some (byKey flags) }

/-- The store with one flag written; this configures it if it was not. -/
def setFlag (s : FlagStore) (f : Flag) : FlagStore :=
  { s with flags := some ((s.flags.getD .empty).insert f.key f) }

/-- Whether the store has a flag of this key. -/
def hasFlag (s : FlagStore) (key : String) : Bool := s.flags.any (·.contains key)

/-- The store without the flag of this key. -/
def removeFlag (s : FlagStore) (key : String) : FlagStore :=
  { s with flags := s.flags.map (·.erase key) }

/-! ## Reading -/

/-- Whether the store was configured. -/
def isReady (s : FlagStore) : Bool := s.flags.isSome

/-- The keys of all flags, in order. -/
def keys (s : FlagStore) : List String := s.flags.elim [] KeyMap.keys

/-- The context under which flags are evaluated: the request's laid over the defaults. -/
def effective (s : FlagStore) (request : Option Context) : Option Context :=
  match s.defaults, request with
  | some defaults, some c => some (defaults.mergedWith c)
  | some defaults, none => some defaults
  | none, request => request

/-- What the flag of a key serves. -/
def evaluate (s : FlagStore) (key : String) (request : Option Context) :
    Except FlagError Evaluation :=
  match s.flags with
  | none => .error .notReady
  | some flags =>
    match flags.get? key with
    | none => .error (.flagNotFound key)
    | some f => .ok (f.evaluate (s.effective request))

/-- What every flag serves, by key. -/
def evaluateAll (s : FlagStore) (request : Option Context) :
    KeyMap String (Except FlagError Evaluation) :=
  (s.flags.getD .empty).mapValues fun _ f => .ok (f.evaluate (s.effective request))

end FlagStore

end FlagFanout
