import FlagFanout.Proofs.Context.Equality
import FlagFanout.Proofs.KeyMap
import FlagFanout.Stream
import Mathlib.Data.List.Induction

/-!
# What an engine was configured with

An engine is asked for one flag or for all at once, and it tells its keys. All three read the store
through the definition of a key (`FlagStore.flag?`), and every call to the engine is one equation
about that definition (`Engine.flag?_call`).

`Engine.History` is all that happened to an engine. `History.definition?` says, from the calls alone
and without any map, which definition stands for a key: the last one that was written for it, unless
a removal or a replacement without it came later. That the store holds just these definitions
(`History.isTold`) goes by induction on the calls, and the main statement `History.evaluates` reads
off what the engine answers.
-/

namespace FlagFanout

/-! ## Requests over default attributes -/

namespace Context

/-- The context of a request over default attributes: an attribute is the request's where the
request has it, else the default one, and there is no context only where there is neither. -/
structure IsLaidOver (defaults request context : Option Context) : Prop where
  eq_none_iff : context = none ↔ defaults = none ∧ request = none
  get?_eq : ∀ key, context.bind (·.get? key) =
    (request.bind (·.get? key)).or (defaults.bind (·.get? key))

/-- There is only one. -/
theorem IsLaidOver.unique {defaults request context context' : Option Context}
    (h : IsLaidOver defaults request context) (h' : IsLaidOver defaults request context') :
    context = context' := by
  have hnone : context = none ↔ context' = none := h.eq_none_iff.trans h'.eq_none_iff.symm
  have hget : ∀ key, context.bind (·.get? key) = context'.bind (·.get? key) := fun key =>
    (h.get?_eq key).trans (h'.get?_eq key).symm
  cases context with
  | none => exact (hnone.1 rfl).symm
  | some c =>
    cases context' with
    | none => exact hnone.2 rfl
    | some c' => exact congrArg some (ext_get? hget)

end Context

namespace FlagStore

variable (s : FlagStore)

theorem isLaidOver_effective (request : Option Context) :
    Context.IsLaidOver s.defaults request (s.effective request) := by
  unfold effective
  cases s.defaults with
  | none => exact ⟨by simp, fun key => by simp⟩
  | some defaults =>
    cases request with
    | none => exact ⟨by simp, fun key => by simp⟩
    | some c => exact ⟨by simp, fun key => by simp⟩

/-! ## The definition of a key -/

/-- The definition that a store holds for a key. -/
def flag? (key : String) : Option Flag := s.flags.bind (·.get? key)

theorem flag?_of_not_isReady (h : s.isReady = false) (key : String) : s.flag? key = none := by
  have hnone : s.flags = none := by simpa [isReady] using h
  rw [flag?, hnone]
  rfl

variable {s} {key : String}

theorem mem_keys_iff : key ∈ s.keys ↔ ∃ f, s.flag? key = some f := by
  unfold keys flag?
  cases s.flags with
  | none => simp
  | some flags => exact KeyMap.mem_keys_iff

/-- A flag is evaluated by its definition. -/
theorem evaluate_of_flag? {f : Flag} (h : s.flag? key = some f) (request : Option Context) :
    s.evaluate key request = .ok (f.evaluate (s.effective request)) := by
  obtain ⟨flags, hflags, hf⟩ := Option.bind_eq_some_iff.1 h
  simp only [evaluate, hflags, hf]

/-- Where a key has no definition, the error tells whether the store was configured. -/
theorem evaluate_of_flag?_eq_none (h : s.flag? key = none) (request : Option Context) :
    s.evaluate key request = .error (if s.isReady then .flagNotFound key else .notReady) := by
  unfold evaluate isReady
  cases hflags : s.flags with
  | none => rfl
  | some flags =>
    have hf : flags.get? key = none := by simpa [flag?, hflags] using h
    simp [hf]

theorem evaluate_eq_ok_iff {request : Option Context} {e : Evaluation} :
    s.evaluate key request = .ok e ↔
      ∃ f, s.flag? key = some f ∧ e = f.evaluate (s.effective request) := by
  cases hf : s.flag? key with
  | none => simp [evaluate_of_flag?_eq_none hf]
  | some f => simp [evaluate_of_flag? hf, eq_comm]

theorem evaluate_eq_error_iff {request : Option Context} {err : FlagError} :
    s.evaluate key request = .error err ↔
      s.flag? key = none ∧ err = if s.isReady then .flagNotFound key else .notReady := by
  cases hf : s.flag? key with
  | none =>
    rw [evaluate_of_flag?_eq_none hf, Except.error.injEq]
    exact ⟨fun h => ⟨rfl, h.symm⟩, fun h => h.2.symm⟩
  | some f => simp [evaluate_of_flag? hf]

theorem evaluateAll_of_not_isReady (h : s.isReady = false) (request : Option Context) :
    s.evaluateAll request = .empty := by
  have hnone : s.flags = none := by simpa [isReady] using h
  rw [evaluateAll, hnone]
  rfl

variable (s) (key)

theorem get?_evaluateAll (request : Option Context) :
    (s.evaluateAll request).get? key =
      (s.flag? key).map fun f => .ok (f.evaluate (s.effective request)) := by
  unfold evaluateAll flag?
  cases s.flags with
  | none => rfl
  | some flags => exact KeyMap.get?_mapValues ..

/-! Flags by their own key. -/

theorem get?_byKey (flags : List Flag) :
    (byKey flags).get? key = flags.reverse.find? (·.key = key) := by
  rw [byKey, KeyMap.get?_ofList, KeyMap.lookup_eq_find?, ← List.map_reverse, List.find?_map,
    Option.map_map]
  exact Option.map_id'

theorem flag?_setFlag (f : Flag) :
    (s.setFlag f).flag? key = if f.key = key then some f else s.flag? key := by
  change ((s.flags.getD .empty).insert f.key f).get? key = _
  rw [KeyMap.get?_insert, flag?]
  cases s.flags with
  | none => simp [eq_comm]
  | some flags => simp [eq_comm]

theorem flag?_removeFlag (removed : String) :
    (s.removeFlag removed).flag? key = if removed = key then none else s.flag? key := by
  unfold removeFlag flag?
  cases s.flags with
  | none => simp
  | some flags => simp [eq_comm]

variable {s} {key}

theorem hasFlag_eq_isSome : s.hasFlag key = (s.flag? key).isSome := by
  unfold hasFlag flag?
  cases s.flags <;> rfl

theorem flag?_of_not_hasFlag (h : s.hasFlag key = false) : s.flag? key = none :=
  Option.isNone_iff_eq_none.1 (by simpa [hasFlag_eq_isSome] using h)

end FlagStore

/-! ## Calls -/

namespace Engine

/-- A call to an engine, by those who configure it or by its subscribers. -/
inductive Call where
  | replaceFlags (flags : List Flag)
  | setFlag (f : Flag)
  | removeFlag (key : String)
  | publish
  | subscribe (who : Subscriber)
  | unsubscribe (who : Subscriber)
  | poll (receiver : Nat)
  | dropReceiver (receiver : Nat)

/-- The engine after a call. -/
def call (e : Engine) : Call → Engine
  | .replaceFlags flags => e.replaceFlags flags
  | .setFlag f => e.setFlag f
  | .removeFlag key => (e.removeFlag key).2
  | .publish => e.publish
  | .subscribe who => e.subscribe who
  | .unsubscribe who => e.unsubscribe who
  | .poll receiver => (e.poll receiver).2
  | .dropReceiver receiver => e.dropReceiver receiver

namespace Call

/-- What a call says of the definition of a key, if anything: which one it is, or that there is
none. Of several definitions with one key in a replacement the last is meant. -/
def tells? (key : String) : Call → Option (Option Flag)
  | replaceFlags flags => some (flags.reverse.find? (·.key = key))
  | setFlag f => if f.key = key then some (some f) else none
  | removeFlag removed => if removed = key then some none else none
  | _ => none

/-- Whether an engine is configured by a call. -/
def configures : Call → Bool
  | replaceFlags _ | setFlag _ => true
  | _ => false

end Call

/-- **A call changes the definitions of which it says something**, and no others. -/
theorem flag?_call (e : Engine) (c : Call) (key : String) :
    (e.call c).store.flag? key = (c.tells? key).getD (e.store.flag? key) := by
  cases c with
  | replaceFlags flags => exact FlagStore.get?_byKey key flags
  | setFlag f =>
    refine (e.store.flag?_setFlag key f).trans ?_
    rw [Call.tells?]
    split <;> rfl
  | removeFlag removed =>
    have hremoved : (e.call (.removeFlag removed)).store.flag? key =
        if removed = key then none else e.store.flag? key := by
      rw [call, removeFlag]
      cases hhas : e.store.hasFlag removed with
      | true => exact e.store.flag?_removeFlag key removed
      | false =>
        -- nothing is removed, and nothing was there
        simp only [Bool.false_eq_true, if_false]
        split
        · next heq => rw [← heq, FlagStore.flag?_of_not_hasFlag hhas]
        · rfl
    rw [hremoved, Call.tells?]
    split <;> rfl
  | publish | subscribe | unsubscribe | poll | dropReceiver => rfl

theorem isReady_call (e : Engine) (c : Call) :
    (e.call c).store.isReady = (e.store.isReady || c.configures) := by
  cases c with
  | replaceFlags flags => exact (Bool.or_true _).symm
  | setFlag f => exact (Bool.or_true _).symm
  | removeFlag removed =>
    change (e.removeFlag removed).2.store.isReady = (e.store.isReady || false)
    rw [removeFlag, Bool.or_false]
    split
    · simp [publish, FlagStore.removeFlag, FlagStore.isReady]
    · rfl
  | publish | subscribe | unsubscribe | poll | dropReceiver => exact (Bool.or_false _).symm

theorem defaults_call (e : Engine) (c : Call) : (e.call c).store.defaults = e.store.defaults := by
  cases c with
  | removeFlag removed =>
    rw [call, removeFlag]
    split <;> rfl
  | replaceFlags | setFlag | publish | subscribe | unsubscribe | poll | dropReceiver => rfl

/-- No call begins or ends an outage. -/
theorem failing_call (e : Engine) (c : Call) : (e.call c).failing = e.failing := by
  cases c with
  | removeFlag removed =>
    rw [call, removeFlag]
    split <;> rfl
  | replaceFlags | setFlag | publish | subscribe | unsubscribe | poll | dropReceiver => rfl

/-! ## Histories -/

/-- How an engine came about: the flags that it was made with, if any, its default attributes, and
the calls to it since. -/
structure History where
  flags : Option (List Flag)
  defaults : Option Context
  calls : List Call

namespace History

/-- The engine that a history comes to. -/
def engine (h : History) : Engine :=
  h.calls.foldl call (.ofStore ⟨h.flags.map FlagStore.byKey, h.defaults⟩)

/-- The calls, where being made with flags counts as a replacement. -/
def allCalls (h : History) : List Call := (h.flags.map .replaceFlags).toList ++ h.calls

/-- The definition that stands for a key at the end: what the last call says that says anything of
the key. -/
def definition? (h : History) (key : String) : Option Flag :=
  (h.allCalls.reverse.findSome? (·.tells? key)).join

/-- Whether the engine was ever configured. -/
def isConfigured (h : History) : Bool := h.allCalls.any (·.configures)

/-- The history with one more call. -/
def after (h : History) (c : Call) : History := { h with calls := h.calls ++ [c] }

variable (h : History) (c : Call)

theorem engine_after : (h.after c).engine = h.engine.call c := by
  simp [engine, after]

theorem allCalls_after : (h.after c).allCalls = h.allCalls ++ [c] :=
  (List.append_assoc ..).symm

theorem definition?_after (key : String) :
    (h.after c).definition? key = (c.tells? key).getD (h.definition? key) := by
  rw [definition?, allCalls_after, List.reverse_append, definition?]
  cases htold : c.tells? key <;> simp [htold]

theorem isConfigured_after : (h.after c).isConfigured = (h.isConfigured || c.configures) := by
  simp [isConfigured, allCalls_after]

/-- A store holds what a history told. -/
structure IsTold (h : History) (s : FlagStore) : Prop where
  flag?_eq : ∀ key, s.flag? key = h.definition? key
  isReady_eq : s.isReady = h.isConfigured
  defaults_eq : s.defaults = h.defaults

theorem isTold_start (flags : Option (List Flag)) (defaults : Option Context) :
    IsTold ⟨flags, defaults, []⟩ ⟨flags.map FlagStore.byKey, defaults⟩ := by
  cases flags with
  | none => exact ⟨fun _ => rfl, rfl, rfl⟩
  | some flags =>
    refine ⟨fun key => ?_, rfl, rfl⟩
    exact FlagStore.get?_byKey key flags

variable {h}

theorem IsTold.call {e : Engine} (htold : h.IsTold e.store) :
    (h.after c).IsTold (e.call c).store where
  flag?_eq key := by rw [flag?_call, definition?_after, htold.flag?_eq]
  isReady_eq := by rw [isReady_call, isConfigured_after, htold.isReady_eq]
  defaults_eq := (defaults_call e c).trans htold.defaults_eq

variable (h)

/-- **The store of an engine holds what its history told**, and nothing makes a flag fail. -/
theorem isTold : h.IsTold h.engine.store ∧ h.engine.failing = [] := by
  obtain ⟨flags, defaults, calls⟩ := h
  induction calls using List.reverseRecOn with
  | nil => exact ⟨isTold_start flags defaults, rfl⟩
  | append_singleton calls c ih =>
    have hengine := engine_after ⟨flags, defaults, calls⟩ c
    rw [after] at hengine
    rw [hengine]
    exact ⟨ih.1.call c, (failing_call _ c).trans ih.2⟩

/-! ## Answers -/

/-- What an engine answers to a request after a history. -/
structure Evaluates (h : History) (request : Option Context) : Prop where
  /-- A flag is evaluated by the last definition written for its key, under the request's attributes
  over the default ones. -/
  evaluate_eq_ok_iff : ∀ key e, h.engine.evaluate key request = .ok e ↔
    ∃ f context, h.definition? key = some f ∧
      Context.IsLaidOver h.defaults request context ∧ e = f.evaluate context
  /-- All at once gives for the same keys the same evaluations, and no error. -/
  evaluateAll_eq_some_iff : ∀ key r, (h.engine.evaluateAll request).get? key = some r ↔
    ∃ e, r = .ok e ∧ h.engine.evaluate key request = .ok e
  /-- The keys are those that can be evaluated. -/
  mem_keys_iff : ∀ key, key ∈ h.engine.store.keys ↔ ∃ e, h.engine.evaluate key request = .ok e
  canEvaluate_iff : ∀ key,
    Stream.canEvaluate h.engine key = true ↔ ∃ e, h.engine.evaluate key request = .ok e
  /-- As long as it was not configured, an engine knows of no flag. -/
  not_ready : h.isConfigured = false →
    (∀ key, h.engine.evaluate key request = .error .notReady) ∧
      h.engine.evaluateAll request = .empty
  /-- From then on a flag fails only for want of a definition. -/
  evaluate_eq_error_iff : h.isConfigured = true → ∀ key err,
    h.engine.evaluate key request = .error err ↔
      err = .flagNotFound key ∧ key ∉ h.engine.store.keys

/-- **One by one or all at once**, an engine evaluates what it was last told. -/
theorem evaluates (request : Option Context) : h.Evaluates request := by
  obtain ⟨htold, hfailing⟩ := h.isTold
  have hevaluate : ∀ key,
      h.engine.evaluate key request = h.engine.store.evaluate key request := fun key => by
    simp [evaluate, hfailing]
  have hall : h.engine.evaluateAll request = h.engine.store.evaluateAll request :=
    KeyMap.ext_get? fun key => by simp [evaluateAll, hfailing]
  have hlaid : Context.IsLaidOver h.defaults request (h.engine.store.effective request) :=
    htold.defaults_eq ▸ h.engine.store.isLaidOver_effective request
  have hkeys : ∀ key,
      key ∈ h.engine.store.keys ↔ ∃ e, h.engine.evaluate key request = .ok e := by
    intro key
    simp only [FlagStore.mem_keys_iff, hevaluate, FlagStore.evaluate_eq_ok_iff]
    constructor
    · rintro ⟨f, hf⟩
      exact ⟨_, f, hf, rfl⟩
    · rintro ⟨_, f, hf, -⟩
      exact ⟨f, hf⟩
  refine
    { evaluate_eq_ok_iff := fun key e => ?_
      evaluateAll_eq_some_iff := fun key r => ?_
      mem_keys_iff := hkeys
      canEvaluate_iff := fun key => ?_
      not_ready := fun hnever => ?_
      evaluate_eq_error_iff := fun hready key err => ?_ }
  · rw [hevaluate, FlagStore.evaluate_eq_ok_iff, htold.flag?_eq]
    constructor
    · rintro ⟨f, hf, he⟩
      exact ⟨f, _, hf, hlaid, he⟩
    · rintro ⟨f, context, hf, hcontext, he⟩
      exact ⟨f, hf, hcontext.unique hlaid ▸ he⟩
  · rw [hall, FlagStore.get?_evaluateAll, Option.map_eq_some_iff]
    simp only [hevaluate, FlagStore.evaluate_eq_ok_iff]
    constructor
    · rintro ⟨f, hf, rfl⟩
      exact ⟨_, rfl, f, hf, rfl⟩
    · rintro ⟨_, rfl, f, hf, rfl⟩
      exact ⟨f, hf, rfl⟩
  · rw [Stream.canEvaluate, List.contains_iff_mem]
    exact hkeys key
  · have hunready : h.engine.store.isReady = false := htold.isReady_eq.trans hnever
    refine ⟨fun key => ?_, hall.trans (FlagStore.evaluateAll_of_not_isReady hunready request)⟩
    rw [hevaluate, FlagStore.evaluate_eq_error_iff]
    exact ⟨FlagStore.flag?_of_not_isReady _ hunready key, by simp [hunready]⟩
  · have hisReady : h.engine.store.isReady = true := htold.isReady_eq.trans hready
    rw [hevaluate, FlagStore.evaluate_eq_error_iff, hisReady, if_pos rfl, and_comm,
      FlagStore.mem_keys_iff, ← Option.ne_none_iff_exists', not_not]

/-- An engine that was made without flags, got one flag under two definitions and another one that
was removed again, and was then asked by a stream. -/
theorem evaluates_after_removal :
    ∃ h : History, h.flags = none ∧ h.isConfigured = true ∧
      h.definition? "a" = some (.constant "a" (.int 2)) ∧ h.definition? "b" = none ∧
      h.Evaluates none :=
  ⟨⟨none, none, [.setFlag (.constant "b" (.int 0)), .subscribe (.stream 0),
      .replaceFlags [.constant "a" (.int 1), .constant "b" (.int 1), .constant "a" (.int 2)],
      .removeFlag "b"]⟩,
    rfl, by decide, by decide, by decide, evaluates _ _⟩

end History

end Engine

end FlagFanout
