import FlagFanout.Proofs.Project.Registry
import Mathlib.Data.Finset.Basic
import Mathlib.Data.Finset.Dedup

/-!
# The event log of a registry

A membership event names a project and says nothing of it. Whoever follows a registry keeps a set of
identifiers and amends it by one event after the other (`MembershipEvent.replay?`), and takes it
that a project runs on the engine it had as long as no event names it.

`MemoryRegistry.eventLog` are the events of the changes that were made. `MemoryRegistry.Recounts`
says that this is a faithful account: a receiver is sent just these events, they can be replayed and
lead to the identifiers that the registry has, no engine changes behind their back, and what was
refused did nothing. `MemoryRegistry.Lives.recounts` is the theorem.

Each step is read off what the first half of a change does to the engines
(`MemoryRegistry.isWritten_write`).
-/

namespace FlagFanout

/-! ## Identifiers along a log -/

namespace MembershipEvent

/-- The identifiers after an event. `none` if it adds one that is there, or removes or replaces one
that is not. -/
def amend? (ids : Finset String) : MembershipEvent → Option (Finset String)
  | added id => if id ∈ ids then none else some (insert id ids)
  | removed id => if id ∈ ids then some (ids.erase id) else none
  | replaced id => if id ∈ ids then some ids else none

/-- The identifiers after some events, one after the other. -/
def replay? (ids : Finset String) (events : List MembershipEvent) : Option (Finset String) :=
  events.foldlM amend? ids

theorem replay?_append (ids : Finset String) (events events' : List MembershipEvent) :
    replay? ids (events ++ events') = (replay? ids events).bind (replay? · events') :=
  List.foldlM_append ..

theorem replay?_singleton (ids : Finset String) (e : MembershipEvent) :
    replay? ids [e] = e.amend? ids :=
  Option.bind_fun_some _

end MembershipEvent

open MembershipEvent (replay?)

namespace MemoryRegistry

/-- The identifiers of the projects. -/
def ids (r : MemoryRegistry) : Finset String := r.projects.keys.toFinset

variable {r r' : MemoryRegistry}

theorem mem_ids {id : String} : id ∈ r.ids ↔ (r.engineOf? id).isSome := by
  rw [ids, List.mem_toFinset, KeyMap.mem_keys_iff, engineOf?, Option.isSome_map,
    Option.isSome_iff_exists]

theorem ids_congr (h : ∀ id, r'.engineOf? id = r.engineOf? id) : r'.ids = r.ids := by
  ext id
  rw [mem_ids, mem_ids, h]

/-- **An event amends the identifiers** as the change did of which it tells. -/
theorem IsWritten.amend?_eq {e : MembershipEvent} (h : r.IsWritten r' (some e)) :
    e.amend? r.ids = some r'.ids := by
  have hothers : ∀ id, id ≠ e.projectId → (id ∈ r'.ids ↔ id ∈ r.ids) := by
    intro id hne
    rw [mem_ids, mem_ids, h.engine_eq id]
    rintro _ ⟨⟩
    exact hne.symm
  have htells := h.tells e rfl
  cases e with
  | added id =>
    rw [MembershipEvent.projectId] at hothers htells
    obtain ⟨hold, hnew⟩ := htells
    have hfree : id ∉ r.ids := by simp [mem_ids, hold]
    rw [MembershipEvent.amend?, if_neg hfree]
    refine congrArg some (Finset.ext fun id' => ?_)
    rw [Finset.mem_insert]
    by_cases heq : id' = id
    · rw [heq]
      exact iff_of_true (.inl rfl) (mem_ids.2 hnew)
    · rw [or_iff_right heq, hothers id' heq]
  | removed id =>
    rw [MembershipEvent.projectId] at hothers htells
    obtain ⟨hold, hnew⟩ := htells
    rw [MembershipEvent.amend?, if_pos (mem_ids.2 hold)]
    refine congrArg some (Finset.ext fun id' => ?_)
    rw [Finset.mem_erase]
    by_cases heq : id' = id
    · simp [heq, mem_ids, hnew]
    · rw [and_iff_right heq, hothers id' heq]
  | replaced id =>
    rw [MembershipEvent.projectId] at hothers htells
    obtain ⟨hold, hnew⟩ := htells
    rw [MembershipEvent.amend?, if_pos (mem_ids.2 hold)]
    refine congrArg some (Finset.ext fun id' => ?_)
    by_cases heq : id' = id
    · rw [heq]
      exact iff_of_true (mem_ids.2 hold) (mem_ids.2 hnew)
    · exact (hothers id' heq).symm

/-! ## Changes that are made, and changes that are refused -/

/-- Whether a change is made; this is what it reports. -/
def accepts (r : MemoryRegistry) : Change → Bool
  | .add p => (r.add p).1
  | .remove id => (r.remove id).1.isSome
  | .replaceEngine id engine => (r.replaceEngine id engine).1
  | .setKeys id keys => (r.setKeys id keys).1

/-- A change is about a project that is there, or about one that is not yet. -/
def Change.Fits (ids : Finset String) : Change → Prop
  | add p => p.id ∉ ids
  | remove id => id ∈ ids
  | replaceEngine id _ => id ∈ ids
  | setKeys id _ => id ∈ ids

/-- The event of a change; to rotate keys is none. -/
def Change.event? : Change → Option MembershipEvent
  | add p => some (.added p.id)
  | remove id => some (.removed id)
  | replaceEngine id _ => some (.replaced id)
  | setKeys _ _ => none

variable {c : Change}

/-- A change is refused exactly if the identifier is taken, or unknown. -/
theorem accepts_iff : r.accepts c = true ↔ c.Fits r.ids := by
  cases c with
  | add p =>
    cases hp : r.projects.get? p.id <;>
      simp [accepts, add, KeyMap.contains, Change.Fits, mem_ids, engineOf?, hp]
  | remove id =>
    cases hp : r.projects.get? id <;>
      simp [accepts, remove, Change.Fits, mem_ids, engineOf?, hp]
  | replaceEngine id engine =>
    cases hp : r.projects.get? id <;>
      simp [accepts, replaceEngine, Change.Fits, mem_ids, engineOf?, hp]
  | setKeys id keys =>
    cases hp : r.projects.get? id <;>
      simp [accepts, setKeys, Change.Fits, mem_ids, engineOf?, hp]

/-- **A change is made and has its event, or it is refused** and then it does nothing. -/
theorem write_cases (r : MemoryRegistry) (c : Change) :
    r.accepts c = true ∧ (r.write c).2 = c.event? ∨
      r.accepts c = false ∧ r.write c = (r, none) := by
  cases c with
  | add p =>
    cases htaken : r.projects.contains p.id <;>
      simp [accepts, add, write, Change.event?, htaken]
  | remove id =>
    cases hp : r.projects.get? id <;> simp [accepts, remove, write, Change.event?, hp]
  | replaceEngine id engine =>
    cases hp : r.projects.get? id <;> simp [accepts, replaceEngine, write, Change.event?, hp]
  | setKeys id keys =>
    cases hp : r.projects.get? id <;> simp [accepts, setKeys, write, Change.event?, hp]

theorem perform_of_refused (h : r.accepts c = false) : r.perform c = r := by
  rcases r.write_cases c with ⟨hmade, -⟩ | ⟨-, hwrite⟩
  · rw [h] at hmade
    cases hmade
  · rw [perform_eq, hwrite]
    rfl

/-- Broadcasting leaves the projects alone. -/
theorem projects_perform (r : MemoryRegistry) (c : Change) :
    (r.perform c).projects = (r.write c).1.projects := by
  rw [perform_eq]
  cases (r.write c).2 <;> rfl

/-! ## Acts -/

/-- What is done with a registry: it is changed, or somebody begins to listen to its events, hears
what there is or stops listening. -/
inductive Act where
  | change (c : Change)
  | listen
  | hear (receiver : Nat)
  | drop (receiver : Nat)

/-- The registry after an act. -/
def act (r : MemoryRegistry) : Act → MemoryRegistry
  | .change c => r.perform c
  | .listen => r.withBroadcast (·.listen)
  | .hear receiver => r.withBroadcast fun b => (b.hear receiver).2
  | .drop receiver => r.withBroadcast (·.drop receiver)

/-- The registry after some acts. -/
def run (r : MemoryRegistry) (acts : List Act) : MemoryRegistry := acts.foldl act r

/-- What is published in an act: the event of a change, if it is made and has one. -/
def published (r : MemoryRegistry) : Act → List MembershipEvent
  | .change c => if r.accepts c then c.event?.toList else []
  | .listen => []
  | .hear _ => []
  | .drop _ => []

/-- What is published in some acts. -/
def eventLog (r : MemoryRegistry) : List Act → List MembershipEvent
  | [] => []
  | a :: acts => r.published a ++ (r.act a).eventLog acts

/-- An act leaves a receiver alone. -/
def Act.Spares (receiver : Nat) : Act → Prop
  | hear receiver' => receiver' ≠ receiver
  | drop receiver' => receiver' ≠ receiver
  | _ => True

/-- A receiver has still to hear of some events, missed ones included. -/
def Owes (r : MemoryRegistry) (receiver : Nat) (events : List MembershipEvent) : Prop :=
  ∃ b, r.events = some b ∧ b.Awaits receiver events

variable {a : Act} {acts : List Act} {receiver : Nat} {events : List MembershipEvent}

theorem published_change (r : MemoryRegistry) (c : Change) :
    r.published (.change c) = (r.write c).2.toList := by
  rcases r.write_cases c with ⟨hmade, hevent⟩ | ⟨hrefused, hwrite⟩
  · rw [published, if_pos hmade, hevent]
  · rw [published, if_neg (by simp [hrefused]), hwrite]
    rfl

/-! ### What one act does -/

theorem Lives.act (h : r.Lives) (a : Act) : (r.act a).Lives := by
  cases a with
  | change c => exact h.change c
  | listen => exact h.listen
  | hear receiver => exact h.hear receiver
  | drop receiver => exact h.drop receiver

/-- What is published in an act amends the identifiers as the act does. -/
theorem replay?_published (r : MemoryRegistry) (a : Act) :
    replay? r.ids (r.published a) = some (r.act a).ids := by
  cases a with
  | change c =>
    have hids : (r.act (.change c)).ids = (r.write c).1.ids :=
      congrArg (·.keys.toFinset) (r.projects_perform c)
    have hwritten := r.isWritten_write c
    rw [published_change, hids]
    cases he : (r.write c).2 with
    | none =>
      rw [he] at hwritten
      rw [ids_congr fun id => hwritten.engine_eq id fun _ hev => nomatch hev]
      rfl
    | some e =>
      rw [he] at hwritten
      exact (MembershipEvent.replay?_singleton _ _).trans hwritten.amend?_eq
  | listen | hear | drop => rfl

/-- An engine changes in no act in which nothing is published about its project. -/
theorem engineOf?_act {id : String} (h : ∀ e ∈ r.published a, e.projectId ≠ id) :
    (r.act a).engineOf? id = r.engineOf? id := by
  cases a with
  | change c =>
    have hengine : (r.act (.change c)).engineOf? id = (r.write c).1.engineOf? id := by
      rw [engineOf?, engineOf?, act, projects_perform]
    rw [hengine]
    refine (r.isWritten_write c).engine_eq id fun e he => h e ?_
    rw [published_change, he]
    exact List.mem_singleton_self e
  | listen | hear | drop => rfl

/-- Another receiver is no matter. -/
theorem Owes.withBroadcast (h : r.Owes receiver events)
    {f : Broadcast MembershipEvent → Broadcast MembershipEvent}
    (hf : ∀ b : Broadcast MembershipEvent, b.Awaits receiver events →
      (f b).Awaits receiver events) :
    (r.withBroadcast f).Owes receiver events := by
  obtain ⟨b, hb, hawaits⟩ := h
  refine ⟨f b, ?_, hf b hawaits⟩
  rw [MemoryRegistry.withBroadcast, hb]
  rfl

/-- A receiver that is left alone is sent what is published. -/
theorem Owes.act (h : r.Owes receiver events) (hspares : a.Spares receiver) :
    (r.act a).Owes receiver (events ++ r.published a) := by
  cases a with
  | change c =>
    obtain ⟨b, hb, hawaits⟩ := h
    have hevents := (r.events_write c).trans hb
    rw [published_change, MemoryRegistry.act, perform_eq]
    cases (r.write c).2 with
    | none =>
      refine ⟨b, hevents, ?_⟩
      rwa [Option.toList_none, List.append_nil]
    | some e =>
      refine ⟨(b.send e).2, ?_, hawaits.send e⟩
      change (r.write c).1.events.map _ = _
      rw [hevents]
      rfl
  | listen =>
    rw [published, List.append_nil]
    exact h.withBroadcast fun b => .listen
  | hear receiver' =>
    rw [published, List.append_nil]
    exact h.withBroadcast fun b hawaits => hawaits.hear_of_ne hspares
  | drop receiver' =>
    rw [published, List.append_nil]
    exact h.withBroadcast fun b hawaits => hawaits.moveTo_of_ne none hspares

/-- A new receiver has nothing to hear yet. -/
theorem Lives.owes_listen (h : r.Lives) {b : Broadcast MembershipEvent} (hb : r.events = some b) :
    (r.act .listen).Owes b.nextReceiver [] := by
  obtain ⟨b', hb', halive⟩ := h.exists_events
  obtain rfl : b = b' := Option.some.inj (hb.symm.trans hb')
  refine ⟨b.listen, ?_, b.awaits_listen halive⟩
  rw [MemoryRegistry.act, MemoryRegistry.withBroadcast, hb]
  rfl

/-! ### Registries that publish nothing -/

theorem accepts_congr (h : r'.projects = r.projects) (c : Change) :
    r'.accepts c = r.accepts c := by
  have hids : r'.ids = r.ids := congrArg (·.keys.toFinset) h
  rw [Bool.eq_iff_iff, accepts_iff, accepts_iff, hids]

theorem projects_write_congr (h : r'.projects = r.projects) (c : Change) :
    (r'.write c).1.projects = (r.write c).1.projects := by
  obtain ⟨projects, events⟩ := r
  obtain ⟨projects', events'⟩ := r'
  obtain rfl : projects' = projects := h
  cases c with
  | add p =>
    simp only [write]
    split <;> rfl
  | remove id =>
    simp only [write]
    split <;> rfl
  | replaceEngine id engine =>
    simp only [write]
    split <;> rfl
  | setKeys id keys =>
    simp only [write, setKeys]
    split <;> rfl

/-- What becomes of the projects has nothing to do with the events. -/
theorem projects_act_congr (h : r'.projects = r.projects) (a : Act) :
    (r'.act a).projects = (r.act a).projects := by
  cases a with
  | change c =>
    rw [act, act, projects_perform, projects_perform]
    exact projects_write_congr h c
  | listen | hear | drop => exact h

theorem isDynamic_act (r : MemoryRegistry) (a : Act) : (r.act a).isDynamic = r.isDynamic := by
  cases a with
  | change c =>
    rw [isDynamic, isDynamic, act, perform_eq, ← r.events_write c]
    cases (r.write c).2 with
    | none => rfl
    | some e => exact Option.isSome_map
  | listen | hear | drop => exact Option.isSome_map

/-! ## Many acts -/

/-- What the event log of some acts tells of the registry. -/
structure Recounts (r : MemoryRegistry) (acts : List Act) : Prop where
  /-- Every project stands under its own identifier. -/
  isKeyed : (r.run acts).IsKeyed
  /-- The events add nobody who is there, remove and replace nobody who is not, and lead to the
  identifiers of the registry. -/
  replay?_eq : replay? r.ids (r.eventLog acts) = some (r.run acts).ids
  /-- The engine of a project stays as long as no event is about the project. -/
  engineOf?_eq : ∀ id, (∀ e ∈ r.eventLog acts, e.projectId ≠ id) →
    (r.run acts).engineOf? id = r.engineOf? id
  /-- Whoever begins to listen has nothing to hear yet. -/
  owes_listen : ∀ b, r.events = some b → (r.act .listen).Owes b.nextReceiver []
  /-- Whoever listens is sent the log. -/
  owes : ∀ receiver events, r.Owes receiver events → (∀ a ∈ acts, a.Spares receiver) →
    (r.run acts).Owes receiver (events ++ r.eventLog acts)
  /-- A change reports a failure if its identifier is taken, or unknown, and only then. -/
  accepts_iff : ∀ c, (r.run acts).accepts c = true ↔ c.Fits (r.run acts).ids
  /-- What reports a failure did nothing. -/
  act_of_refused : ∀ c, (r.run acts).accepts c = false →
    (r.run acts).act (.change c) = r.run acts ∧ (r.run acts).published (.change c) = []
  /-- A registry that publishes nothing goes through the same states and reports the same. -/
  silent : ∀ r' : MemoryRegistry, r'.isDynamic = false → r'.projects = r.projects →
    (r'.run acts).isDynamic = false ∧ (r'.run acts).projects = (r.run acts).projects ∧
      ∀ c, (r'.run acts).accepts c = (r.run acts).accepts c

theorem Lives.run (h : r.Lives) (acts : List Act) : (r.run acts).Lives := by
  induction acts generalizing r with
  | nil => exact h
  | cons a acts ih => exact ih (h.act a)

/-- **The events can be replayed**, and lead to the identifiers of the registry. -/
theorem replay?_eventLog (r : MemoryRegistry) (acts : List Act) :
    replay? r.ids (r.eventLog acts) = some (r.run acts).ids := by
  induction acts generalizing r with
  | nil => rfl
  | cons a acts ih =>
    rw [eventLog, MembershipEvent.replay?_append, replay?_published, Option.bind_some]
    exact ih (r.act a)

/-- **No engine changes unless an event tells of it.** -/
theorem engineOf?_run {id : String} (h : ∀ e ∈ r.eventLog acts, e.projectId ≠ id) :
    (r.run acts).engineOf? id = r.engineOf? id := by
  induction acts generalizing r with
  | nil => rfl
  | cons a acts ih =>
    have hnow : (r.act a).engineOf? id = r.engineOf? id :=
      engineOf?_act fun e he => h e (List.mem_append_left _ he)
    exact (ih fun e he => h e (List.mem_append_right _ he)).trans hnow

/-- **A receiver is sent the log**, event by event. -/
theorem Owes.run (h : r.Owes receiver events) (hspares : ∀ a ∈ acts, a.Spares receiver) :
    (r.run acts).Owes receiver (events ++ r.eventLog acts) := by
  induction acts generalizing r events with
  | nil => rwa [eventLog, List.append_nil]
  | cons a acts ih =>
    obtain ⟨hfirst, hrest⟩ := List.forall_mem_cons.1 hspares
    rw [eventLog, ← List.append_assoc]
    exact ih (h.act hfirst) hrest

theorem silent_run (hsilent : r'.isDynamic = false) (h : r'.projects = r.projects)
    (acts : List Act) :
    (r'.run acts).isDynamic = false ∧ (r'.run acts).projects = (r.run acts).projects := by
  induction acts generalizing r r' with
  | nil => exact ⟨hsilent, h⟩
  | cons a acts ih =>
    exact ih ((r'.isDynamic_act a).trans hsilent) (projects_act_congr h a)

/-- **The event log is a faithful account** of what became of a registry, from any moment on. -/
theorem Lives.recounts (h : r.Lives) (acts : List Act) : r.Recounts acts where
  isKeyed := (h.run acts).isKeyed
  replay?_eq := r.replay?_eventLog acts
  engineOf?_eq id := engineOf?_run
  owes_listen b := h.owes_listen
  owes receiver events := Owes.run
  accepts_iff c := accepts_iff
  act_of_refused c hrefused := by
    refine ⟨perform_of_refused hrefused, ?_⟩
    rw [published, if_neg (by simp [hrefused])]
  silent r' hsilent hprojects := by
    obtain ⟨hstill, heq⟩ := silent_run hsilent hprojects acts
    exact ⟨hstill, heq, accepts_congr heq⟩

/-- Somebody listens while one project comes and goes over to another engine, and another one leaves
and comes back; in between some changes are refused, and keys are rotated. -/
theorem recounts_after_refusals :
    ∃ (r : MemoryRegistry) (acts : List Act), r.Lives ∧
      r.eventLog acts = [.added "b", .replaced "b", .removed "a", .added "a"] ∧
      (r.run acts).projects.values = [⟨"a", [], "g"⟩, ⟨"b", ["k"], "f"⟩] ∧ r.Recounts acts := by
  let r : MemoryRegistry := (dynamic [⟨"a", [], "e"⟩]).act .listen
  let acts : List Act :=
    [.change (.add ⟨"a", [], "f"⟩), .change (.add ⟨"b", [], "e"⟩), .change (.setKeys "b" ["k"]),
      .hear 0, .change (.replaceEngine "c" "f"), .change (.replaceEngine "b" "f"),
      .change (.remove "a"), .change (.remove "a"), .change (.add ⟨"a", [], "g"⟩)]
  have hlives : r.Lives := (Lives.dynamic _).listen
  exact ⟨r, acts, hlives, by decide, by decide, hlives.recounts acts⟩

end MemoryRegistry

end FlagFanout
