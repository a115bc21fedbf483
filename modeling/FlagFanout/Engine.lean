import FlagFanout.Engine.Signals
import FlagFanout.Engine.Store

/-!
# Evaluation engines

An engine serves the flags of a project from a store and signals changes to its subscribers. An
outage makes single keys fail: evaluating such a key is an error whatever the store holds, and the
key fails in a scan of all flags; beginning or ending an outage changes no configuration and
signals nobody.

What streams need of an engine is an `Evaluator`: how it evaluates one flag and how it scans all.
-/

namespace FlagFanout

/-- How flags are evaluated at one moment. -/
structure Evaluator where
  evaluate : String → Option Context → Except FlagError Evaluation
  evaluateAll : Option Context → KeyMap String (Except FlagError Evaluation)

/-- The evaluator of a store. -/
def FlagStore.evaluator (s : FlagStore) : Evaluator := ⟨s.evaluate, s.evaluateAll⟩

/-- A store of flags, the keys that an outage makes fail, and the subscribers. -/
structure Engine where
  store : FlagStore
  failing : List String
  signals : Signals
  deriving Inhabited

namespace Engine

/-- An engine over a store, without outage and without subscribers. -/
def ofStore (store : FlagStore) : Engine := ⟨store, [], .none⟩

/-! ## Evaluating -/

/-- The error of a key during an outage. -/
def outage (key : String) : FlagError := .evaluation key "rule engine unavailable"

/-- What the flag of a key serves. -/
def evaluate (e : Engine) (key : String) (request : Option Context) :
    Except FlagError Evaluation :=
  if key ∈ e.failing then .error (outage key) else e.store.evaluate key request

/-- What every flag serves, by key. -/
def evaluateAll (e : Engine) (request : Option Context) :
    KeyMap String (Except FlagError Evaluation) :=
  (e.store.evaluateAll request).mapValues fun key r =>
    if key ∈ e.failing then .error (outage key) else r

/-- The evaluator of the engine as it stands. -/
def evaluator (e : Engine) : Evaluator := ⟨e.evaluate, e.evaluateAll⟩

/-! ## Changing the configuration -/

/-- Every subscriber is told of a change. -/
def publish (e : Engine) : Engine := { e with signals := e.signals.publish }

/-- Replaces the whole configuration. -/
def replaceFlags (e : Engine) (flags : List Flag) : Engine :=
  { e with store := e.store.replaceFlags flags }.publish

/-- Writes one flag. -/
def setFlag (e : Engine) (f : Flag) : Engine := { e with store := e.store.setFlag f }.publish

/-- Removes one flag, and tells whether there was one; only then a change is signalled. -/
def removeFlag (e : Engine) (key : String) : Bool × Engine :=
  if e.store.hasFlag key then
    (true, { e with store := e.store.removeFlag key }.publish)
  else (false, e)

/-- Begins an outage of a key, and tells whether it was not one already. -/
def fail (e : Engine) (key : String) : Bool × Engine :=
  if key ∈ e.failing then (false, e) else (true, { e with failing := key :: e.failing })

/-- Ends the outage of a key, and tells whether there was one. -/
def restore (e : Engine) (key : String) : Bool × Engine :=
  (key ∈ e.failing, { e with failing := e.failing.filter (· ≠ key) })

/-! ## Subscribers -/

/-- A new subscription; its receiver is at `e.signals.nextReceiver`. -/
def subscribe (e : Engine) (who : Subscriber) : Engine :=
  { e with signals := e.signals.subscribe who }

/-- Ends a subscription. -/
def unsubscribe (e : Engine) (who : Subscriber) : Engine :=
  { e with signals := e.signals.unsubscribe who }

/-- What the receiver at a place finds. -/
def poll (e : Engine) (receiver : Nat) : Poll × Engine :=
  let (found, signals) := e.signals.poll receiver
  (found, { e with signals })

/-- The receiver at a place is dropped. -/
def dropReceiver (e : Engine) (receiver : Nat) : Engine :=
  { e with signals := e.signals.dropReceiver receiver }

end Engine

end FlagFanout
