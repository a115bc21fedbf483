import FlagFanout.Proofs.Project.Broadcast
import FlagFanout.Proofs.Server.Following
import FlagFanout.Proofs.Server.Lookup
import FlagFanout.Proofs.Stream.Run

/-!
# A server catches up with its registry

Membership events name a project and say nothing of it, so a server applies each of them against
whatever the registry holds by then. Events may come late, be applied again after a reconciliation
that knew more than they do, or be lost to a lag.

A `Pursuit` is a registry with a server that follows it, in which changes of the registry, work of
the server, lookups and whatever goes on in the streams come in any order. A change writes the
projects and then sends its event; the server takes an event, asks the registry and then acts; all
of these may come apart. A registry that is asked lists its projects in any order.

`Pursuit.Reached.catches_up` says that the server catches up: when no change is half done and the
server has nothing left to hear or to do, it has a stream for exactly the projects of the registry,
each on the engine that the registry has for it. The invariant is `Pursuit.IsBehind`: were the
registry to rest now, the events that are still to come would take the server where the registry is
(`MembershipEvent.outlook`), and a server that is there already they would not take away.
-/

namespace FlagFanout

/-! ## What events lead to -/

namespace MembershipEvent

/-- What a server will have for a project that it had `had` for, once some events were applied, if
the registry has `now` for it all the while. -/
def outlook (id : String) (now had : Option String) (events : List MembershipEvent) :
    Option String :=
  events.foldl (fun had e => if e.projectId = id then e.outcome now had else had) had

variable {id : String} {now had : Option String} {events : List MembershipEvent}
  {e : MembershipEvent}

theorem outlook_cons : outlook id now had (e :: events) =
    outlook id now (if e.projectId = id then e.outcome now had else had) events := rfl

theorem outlook_concat : outlook id now had (events ++ [e]) =
    if e.projectId = id then e.outcome now (outlook id now had events)
    else outlook id now had events := by
  unfold outlook
  rw [List.foldl_append]
  rfl

/-- What agrees with the registry, or is missing, stays one or the other. -/
theorem outlook_eq_none_or (h : had = none ∨ had = now) :
    outlook id now had events = none ∨ outlook id now had events = now := by
  induction events generalizing had with
  | nil => exact h
  | cons e rest ih =>
    rw [outlook_cons]
    refine ih ?_
    split
    · cases e with
      | added _ =>
        rcases h with rfl | rfl
        · exact .inr (Option.none_or ..)
        · exact .inr (Option.or_self ..)
      | removed _ => exact .inl rfl
      | replaced _ => exact .inr rfl
    · exact h

/-- Events that take away what a server has for a project, as long as the registry has none, leave
it with nothing or with the right thing when the registry has one again. -/
theorem outlook_of_none (h : outlook id none had events = none) :
    outlook id now had events = none ∨ outlook id now had events = now := by
  induction events generalizing had with
  | nil => exact .inl h
  | cons e rest ih =>
    rw [outlook_cons] at h ⊢
    split
    · next heq =>
      rw [if_pos heq] at h
      cases e with
      | added _ =>
        cases had with
        | none => exact outlook_eq_none_or (.inr (Option.none_or ..))
        | some engine => exact ih h
      | removed _ => exact ih h
      | replaced _ => exact outlook_eq_none_or (.inr rfl)
    · next hne =>
      rw [if_neg hne] at h
      exact ih h

/-- The event of a change behind some others makes an outlook right. Only one that was added says
nothing about what a server had before. -/
theorem outlook_concat_of_tells {old new : Option String} (hid : e.projectId = id)
    (htells : e.Tells old new)
    (h : old = none → outlook id new had events = none ∨ outlook id new had events = new) :
    outlook id new had (events ++ [e]) = new := by
  rw [outlook_concat, if_pos hid]
  cases e with
  | added _ =>
    rcases h htells.1 with hnone | hnew
    · rw [hnone]
      exact Option.none_or ..
    · rw [hnew]
      exact Option.or_self ..
  | removed _ => exact htells.2.symm
  | replaced _ => rfl

end MembershipEvent

/-! ## Outlooks along a registry -/

/-- A change that was written makes an outlook right, together with its event. -/
theorem MemoryRegistry.outlook_write (r : MemoryRegistry) (c : Change) {id : String}
    {had : Option String} {events : List MembershipEvent}
    (hsame : (r.write c).1.engineOf? id = r.engineOf? id →
      MembershipEvent.outlook id (r.engineOf? id) had events = r.engineOf? id)
    (hnone : r.engineOf? id = none →
      MembershipEvent.outlook id ((r.write c).1.engineOf? id) had events = none ∨
        MembershipEvent.outlook id ((r.write c).1.engineOf? id) had events =
          (r.write c).1.engineOf? id) :
    MembershipEvent.outlook id ((r.write c).1.engineOf? id) had
      (events ++ (r.write c).2.toList) = (r.write c).1.engineOf? id := by
  have hwritten := r.isWritten_write c
  cases he : (r.write c).2 with
  | none =>
    have heq := hwritten.engine_eq id fun ev hev => nomatch hev.symm.trans he
    rw [Option.toList_none, List.append_nil, heq, hsame heq]
  | some ev =>
    rw [Option.toList_some]
    by_cases hid : ev.projectId = id
    · exact MembershipEvent.outlook_concat_of_tells hid (hid ▸ hwritten.tells ev he) hnone
    · have heq := hwritten.engine_eq id fun ev' hev' => by
        cases hev'.symm.trans he
        exact hid
      rw [MembershipEvent.outlook_concat, if_neg hid, heq, hsame heq]

/-! ## Pursuits -/

/-- What a server that follows a registry is in the middle of. -/
inductive Task where
  /-- It listens, and has not asked for the projects yet. -/
  | opening
  /-- It knows the projects for which it will have streams. -/
  | opened (projects : List Project)
  /-- It took an event, and has not asked the registry yet. -/
  | heard (e : MembershipEvent)
  /-- It knows the projects against which it will apply an event. -/
  | informed (e : MembershipEvent) (projects : List Project)
  /-- It found that it missed events, and has not asked for the projects yet. -/
  | lagged
  /-- It knows the projects with which it will bring itself in line. -/
  | surveyed (projects : List Project)

/-- The task of a server that asked for the projects. `none` if it has nothing to ask. -/
def Task.inform? (projects : List Project) : Task → Option Task
  | opening => some (opened projects)
  | heard e => some (informed e projects)
  | lagged => some (surveyed projects)
  | _ => none

/-- A registry and a server that follows it. -/
structure Pursuit where
  registry : MemoryRegistry
  /-- The event of a change that was written and not broadcast yet. -/
  unsent : Option MembershipEvent
  serving : Serving
  task : Option Task

namespace Pursuit

/-- What of it is no business in hand. -/
def deployment (w : Pursuit) : Deployment := ⟨.memory w.registry, w.serving⟩

/-- A server opens: it listens to the events of a registry before it looks at the projects. `none`
if there are no events. -/
def open? (registry : MemoryRegistry) (config : StreamConfig) (fleet : Fleet) : Option Pursuit :=
  registry.events.map fun b =>
    { registry := registry.withBroadcast (·.listen)
      unsent := none
      serving := ⟨.ofConfig config (some b.nextReceiver), fleet⟩
      task := some .opening }

/-! ### Work of the server -/

/-- The server takes an event or finds that it missed some. `none` if there is nothing to hear, or
it is in the middle of something. -/
def hear? (w : Pursuit) : Option Pursuit :=
  match w.task, w.serving.server.receiver, w.registry.events with
  | none, some receiver, some b =>
    let registry := w.registry.withBroadcast fun b => (b.hear receiver).2
    match (b.hear receiver).1 with
    | .event e => some { w with registry, task := some (.heard e) }
    | .lagged _ => some { w with registry, task := some .lagged }
    | _ => none
  | _, _, _ => none

/-- The server asks the registry for its projects, and they come in some order. -/
def look? (w : Pursuit) (projects : List Project) : Option Pursuit :=
  if projects.Perm w.registry.projects.values then
    (w.task.bind (·.inform? projects)).map fun task => { w with task := some task }
  else none

theorem look?_values (w : Pursuit) : w.look? w.registry.projects.values =
    (w.task.bind (·.inform? w.registry.projects.values)).map fun task =>
      { w with task := some task } :=
  if_pos (List.Perm.refl _)

/-- A server that may ask gets a list of all projects. -/
theorem look?_cases {w w' : Pursuit} {projects : List Project} (h : w.look? projects = some w') :
    projects.Perm w.registry.projects.values ∧
      ∃ asked task, w.task = some asked ∧ asked.inform? projects = some task ∧
        w' = { w with task := some task } := by
  unfold look? at h
  split at h
  · next hperm =>
    obtain ⟨task, htask, rfl⟩ := Option.map_eq_some_iff.1 h
    obtain ⟨asked, hasked, hinform⟩ := Option.bind_eq_some_iff.1 htask
    exact ⟨hperm, asked, task, hasked, hinform, rfl⟩
  · cases h

/-- The server acts on what the registry said. -/
def finish? (w : Pursuit) : Option Pursuit :=
  match w.task with
  | some (.opened projects) =>
    let server := w.serving.server
    some { w with
      serving := .start projects server.config server.receiver w.serving.fleet
      task := none }
  | some (.informed e projects) =>
    some { w with serving := w.serving.apply projects e, task := none }
  | some (.surveyed projects) =>
    some { w with serving := w.serving.reconcile projects, task := none }
  | _ => none

/-! ### Acts -/

/-- What can happen. -/
inductive Act where
  /-- The registry is changed. -/
  | change (c : MemoryRegistry.Change)
  /-- The first half of a change. -/
  | write (c : MemoryRegistry.Change)
  /-- The second half of a change. -/
  | publish
  | hear
  | look (projects : List Project)
  | finish
  /-- The server takes an event and applies it at once. -/
  | step
  /-- A client looks an access key up. -/
  | lookup (key : String)
  /-- A part of a lookup writes the cache of access keys. -/
  | cache (byKey : KeyMap String String)
  /-- Something happens to the stream of a serial number. -/
  | stream (serial : Nat) (a : Stream.Act)
  /-- Something happens to an engine. -/
  | engine (name : String) (e : Engine)
  /-- Somebody else listens to the events of the registry. -/
  | listen
  /-- Somebody else hears what there is. -/
  | hearElse (receiver : Nat)
  /-- Somebody else stops listening. -/
  | dropElse (receiver : Nat)
  /-- The server is closed. -/
  | close

/-- The pursuit with another serving. -/
def serve (w : Pursuit) (serving : Serving) : Pursuit := { w with serving }

/-- One act; `none` where there is nothing to do or it is not for others. Changes of the registry
come one after the other. -/
def act? (w : Pursuit) : Act → Option Pursuit
  | .change c =>
    if w.unsent.isSome then none else some { w with registry := w.registry.perform c }
  | .write c =>
    if w.unsent.isSome then none
    else
      let (registry, unsent) := w.registry.write c
      some { w with registry, unsent }
  | .publish => w.unsent.map fun e => { w with registry := w.registry.publish e, unsent := none }
  | .hear => w.hear?
  | .look projects => w.look? projects
  | .finish => w.finish?
  | .step => w.hear?.bind fun w => (w.look? w.registry.projects.values).bind finish?
  | .lookup key => some (w.serve (w.deployment.lookup key).2.serving)
  | .cache byKey => some (w.serve (w.deployment.withCache byKey).serving)
  | .stream serial a =>
    (w.serving.fleet.stream? serial).bind fun s => (s.act? a).map fun r =>
      w.serve { w.serving with fleet := w.serving.fleet.setStream r.1 }
  | .engine name e => some (w.serve { w.serving with fleet := w.serving.fleet.setEngine name e })
  | .listen => some { w with registry := w.registry.withBroadcast (·.listen) }
  | .hearElse receiver =>
    if w.serving.server.receiver = some receiver then none
    else some { w with registry := w.registry.withBroadcast fun b => (b.hear receiver).2 }
  | .dropElse receiver =>
    if w.serving.server.receiver = some receiver then none
    else some { w with registry := w.registry.withBroadcast (·.drop receiver) }
  | .close =>
    some
      { w with
        registry := w.registry.withBroadcast fun b =>
          w.serving.server.receiver.elim b b.drop
        serving := w.deployment.close.serving
        task := none }

/-- A server that opened over a registry in use came to `w` by acts in some order. -/
inductive Reached : Pursuit → Prop
  | start {registry : MemoryRegistry} (hlives : registry.Lives) (config : StreamConfig)
    {fleet : Fleet} (hnumbered : fleet.Numbered) {w : Pursuit}
    (hopen : open? registry config fleet = some w) : Reached w
  | act {w w' : Pursuit} {a : Act} (hreached : Reached w) (hact : w.act? a = some w') : Reached w'

/-! ## The invariant -/

/-- What the server will have for a project when the task in hand is done, and the event that it is
about to ask for. `none` if what it had does not matter any more. -/
def prospect? (w : Pursuit) (id : String) : Option (Option String × List MembershipEvent) :=
  match w.task with
  | none => some (w.serving.engineOf? id, [])
  | some (.heard e) => some (w.serving.engineOf? id, [e])
  | some (.informed e projects) =>
    some (Function.update w.serving.engineOf? e.projectId
      (e.outcome (Project.engineWithId? projects e.projectId) (w.serving.engineOf? e.projectId)) id,
      [])
  | some (.opened projects) => some (Project.engineWithId? projects id, [])
  | some (.surveyed projects) => some (Project.engineWithId? projects id, [])
  | some .opening => none
  | some .lagged => none

/-- The server has still to hear of some events, sent or not, and catches up with them. -/
structure IsBehind (w : Pursuit) (pending : List MembershipEvent) : Prop where
  keyed : w.registry.IsKeyed
  housed : w.serving.IsHoused
  isOpen : w.serving.server.closed = false
  awaits : ∃ b receiver events, w.registry.events = some b ∧
    w.serving.server.receiver = some receiver ∧ b.Awaits receiver events ∧
    pending = events ++ w.unsent.toList
  /-- A server that is where the registry is would be there again after the last events. -/
  steady : ∀ id events, events <:+ pending →
    MembershipEvent.outlook id (w.registry.engineOf? id) (w.registry.engineOf? id) events =
      w.registry.engineOf? id
  /-- The server will be where the registry is after all events. -/
  catches : ∀ id had front, w.prospect? id = some (had, front) →
    MembershipEvent.outlook id (w.registry.engineOf? id) had (front ++ pending) =
      w.registry.engineOf? id
  /-- A list of all projects has every identifier once. -/
  unique : ∀ projects, w.task = some (.opened projects) ∨ w.task = some (.surveyed projects) →
    (projects.map (·.id)).Nodup

namespace IsBehind

variable {w w' : Pursuit} {pending : List MembershipEvent}

/-- A server that has something else in hand, or knows more about it. -/
theorem withTask (h : w.IsBehind pending) (task : Option Task)
    (hcatches : ∀ id had front, { w with task }.prospect? id = some (had, front) →
      MembershipEvent.outlook id (w.registry.engineOf? id) had (front ++ pending) =
        w.registry.engineOf? id)
    (hunique : ∀ projects, task = some (.opened projects) ∨ task = some (.surveyed projects) →
      (projects.map (·.id)).Nodup) :
    { w with task }.IsBehind pending :=
  ⟨h.keyed, h.housed, h.isOpen, h.awaits, h.steady, hcatches, hunique⟩

/-- A server that goes on to the same engines, whatever its cache and its streams do. -/
theorem serve (h : w.IsBehind pending) {v : Serving}
    (hgo : w.serving.GoesTo v w.serving.engineOf?) : (w.serve v).IsBehind pending := by
  obtain ⟨b, receiver, events, hb, hreceiver, hawaits, hpending⟩ := h.awaits
  refine ⟨h.keyed, hgo.housed, hgo.closed_eq.trans h.isOpen,
    ⟨b, receiver, events, hb, hgo.receiver_eq.trans hreceiver, hawaits, hpending⟩, h.steady, ?_,
    h.unique⟩
  have hengines : v.engineOf? = w.serving.engineOf? := funext hgo.engine_eq
  intro id had front hprospect
  refine h.catches id had front ?_
  unfold prospect? at hprospect ⊢
  rw [← hengines]
  exact hprospect

/-- A server that did what it had in hand. -/
theorem finish (h : w.IsBehind pending) {v : Serving} {engines : String → Option String}
    (hgo : w.serving.GoesTo v engines)
    (hprospect : ∀ id, w.prospect? id = some (engines id, [])) :
    { w with serving := v, task := none }.IsBehind pending := by
  obtain ⟨b, receiver, events, hb, hreceiver, hawaits, hpending⟩ := h.awaits
  refine ⟨h.keyed, hgo.housed, hgo.closed_eq.trans h.isOpen,
    ⟨b, receiver, events, hb, hgo.receiver_eq.trans hreceiver, hawaits, hpending⟩, h.steady, ?_,
    fun _ htask => by simp at htask⟩
  rintro id had front ⟨⟩
  exact (hgo.engine_eq id).symm ▸ h.catches id _ _ (hprospect id)

/-- What other receivers of the events do. -/
theorem broadcast (h : w.IsBehind pending)
    {f : Broadcast MembershipEvent → Broadcast MembershipEvent}
    (hf : ∀ b receiver events, w.serving.server.receiver = some receiver →
      b.Awaits receiver events → (f b).Awaits receiver events) :
    { w with registry := w.registry.withBroadcast f }.IsBehind pending := by
  obtain ⟨b, receiver, events, hb, hreceiver, hawaits, hpending⟩ := h.awaits
  refine ⟨h.keyed, h.housed, h.isOpen,
    ⟨f b, receiver, events, ?_, hreceiver, hf b receiver events hreceiver hawaits, hpending⟩,
    h.steady, h.catches, h.unique⟩
  change w.registry.events.map f = _
  rw [hb]
  rfl

/-- A change is written; its event is still to come. -/
theorem write (h : w.IsBehind pending) (hwhole : w.unsent = none) (c : MemoryRegistry.Change) :
    { w with registry := (w.registry.write c).1, unsent := (w.registry.write c).2 }.IsBehind
      (pending ++ (w.registry.write c).2.toList) := by
  obtain ⟨b, receiver, events, hb, hreceiver, hawaits, hpending⟩ := h.awaits
  refine ⟨h.keyed.write c, h.housed, h.isOpen,
    ⟨b, receiver, events, (w.registry.events_write c).trans hb, hreceiver, hawaits, ?_⟩, ?_, ?_,
    h.unique⟩
  · rw [hpending, hwhole, Option.toList_none, List.append_nil]
  · intro id events hsuffix
    have hsteady : ∀ events, events <:+ pending →
        MembershipEvent.outlook id ((w.registry.write c).1.engineOf? id)
          ((w.registry.write c).1.engineOf? id) (events ++ (w.registry.write c).2.toList) =
            (w.registry.write c).1.engineOf? id := fun events hevents =>
      w.registry.outlook_write c (fun heq => heq ▸ h.steady id events hevents)
        fun _ => MembershipEvent.outlook_eq_none_or (.inr rfl)
    cases he : (w.registry.write c).2 with
    | none =>
      rw [he, Option.toList_none, List.append_nil] at hsuffix
      have hkept := hsteady events hsuffix
      rwa [he, Option.toList_none, List.append_nil] at hkept
    | some ev =>
      rw [he, Option.toList_some] at hsuffix
      rcases List.suffix_concat_iff.1 hsuffix with rfl | ⟨events', rfl, hsuffix'⟩
      · rfl
      · have hkept := hsteady events' hsuffix'
        rwa [he] at hkept
  · intro id had front hprospect
    have hcatches := h.catches id had front hprospect
    rw [← List.append_assoc]
    exact w.registry.outlook_write c (fun _ => hcatches) fun hnone =>
      MembershipEvent.outlook_of_none (hnone ▸ hcatches)

/-- The event of a change is broadcast. -/
theorem publish (h : w.IsBehind pending) {e : MembershipEvent} (hunsent : w.unsent = some e) :
    { w with registry := w.registry.publish e, unsent := none }.IsBehind pending := by
  obtain ⟨b, receiver, events, hb, hreceiver, hawaits, hpending⟩ := h.awaits
  refine ⟨h.keyed, h.housed, h.isOpen,
    ⟨(b.send e).2, receiver, events ++ [e], ?_, hreceiver, hawaits.send e, ?_⟩, h.steady,
    h.catches, h.unique⟩
  · change w.registry.events.map _ = _
    rw [hb]
    rfl
  · rw [hpending, hunsent, Option.toList_some, Option.toList_none, List.append_nil]

/-- A whole change. -/
theorem change (h : w.IsBehind pending) (hwhole : w.unsent = none) (c : MemoryRegistry.Change) :
    { w with registry := w.registry.perform c }.IsBehind
      (pending ++ (w.registry.write c).2.toList) := by
  have hwrite := h.write hwhole c
  rw [w.registry.perform_eq]
  cases he : (w.registry.write c).2 with
  | none =>
    rw [he] at hwrite
    have hw : ({ w with registry := (w.registry.write c).1, unsent := none } : Pursuit) =
        { w with registry := (w.registry.write c).1 } := by rw [hwhole]
    exact hw ▸ hwrite
  | some e =>
    have hpublish := hwrite.publish he
    have hw : ({ w with registry := (w.registry.write c).1.publish e, unsent := none } : Pursuit) =
        { w with registry := (w.registry.write c).1.publish e } := by rw [hwhole]
    rw [he] at hpublish
    exact hw ▸ hpublish

/-- The server goes on to the events `rest`, the others it took or lost. -/
theorem advance {b : Broadcast MembershipEvent} {receiver : Nat}
    {events rest : List MembershipEvent} (h : w.IsBehind (events ++ w.unsent.toList))
    (hb : w.registry.events = some b) (hreceiver : w.serving.server.receiver = some receiver)
    (hsuffix : rest <:+ events) (hrest : (b.hear receiver).2.Awaits receiver rest)
    {task : Option Task}
    (hcatches : ∀ id had front, { w with task }.prospect? id = some (had, front) →
      MembershipEvent.outlook id (w.registry.engineOf? id) had
        (front ++ (rest ++ w.unsent.toList)) = w.registry.engineOf? id)
    (hblank : ∀ projects, task ≠ some (.opened projects) ∧ task ≠ some (.surveyed projects)) :
    { w with
      registry := w.registry.withBroadcast fun b => (b.hear receiver).2
      task }.IsBehind (rest ++ w.unsent.toList) := by
  refine ⟨h.keyed, h.housed, h.isOpen, ⟨_, receiver, rest, ?_, hreceiver, hrest, rfl⟩, ?_, hcatches,
    fun projects hsome => absurd hsome (by simp [hblank projects])⟩
  · rw [MemoryRegistry.withBroadcast, hb]
    rfl
  · intro id later hlater
    obtain ⟨front, rfl⟩ := hsuffix
    exact h.steady id later (hlater.trans ⟨front, (List.append_assoc ..).symm⟩)

/-- The server takes an event, or finds that it missed some. -/
theorem hear (h : w.IsBehind pending) (hhear : w.hear? = some w') :
    ∃ pending', w'.IsBehind pending' := by
  obtain ⟨b, receiver, events, hb, hreceiver, hawaits, rfl⟩ := h.awaits
  unfold hear? at hhear
  cases htask : w.task with
  | some task => simp [htask] at hhear
  | none =>
    simp only [htask, hreceiver, hb] at hhear
    rcases hawaits.hear with ⟨e, rest, rfl, hfound, hrest⟩ |
      ⟨missed, rest, hsuffix, hfound, hrest⟩ | ⟨-, hfound⟩
    · simp only [hfound, Option.some.injEq] at hhear
      subst hhear
      refine ⟨_, h.advance hb hreceiver (List.suffix_cons e rest) hrest ?_ (by simp)⟩
      rintro id had front ⟨⟩
      exact h.catches id _ [] (by rw [prospect?, htask])
    · simp only [hfound, Option.some.injEq] at hhear
      subst hhear
      refine ⟨_, h.advance hb hreceiver hsuffix hrest ?_ (by simp)⟩
      rintro id had front ⟨⟩
    · simp only [hfound, reduceCtorEq] at hhear

/-- The server asks the registry. -/
theorem look (h : w.IsBehind pending) {projects : List Project}
    (hlook : w.look? projects = some w') : w'.IsBehind pending := by
  obtain ⟨hperm, asked, task, htask, hinform, rfl⟩ := look?_cases hlook
  have hengine := h.keyed.engineWithId?_of_perm hperm
  -- a server that takes over the whole registry is where the registry is
  have hsurvey : ∀ id, MembershipEvent.outlook id (w.registry.engineOf? id)
      (Project.engineWithId? projects id) pending = w.registry.engineOf? id := by
    intro id
    rw [hengine]
    exact h.steady id pending (List.suffix_refl _)
  cases asked with
  | opening =>
    cases hinform
    refine h.withTask _ ?_ ?_
    · rintro id had front ⟨⟩
      exact hsurvey id
    · rintro projects (hsome | hsome)
      · cases hsome
        exact h.keyed.nodup_ids hperm
      · cases hsome
  | heard e =>
    cases hinform
    refine h.withTask _ ?_ fun _ hsome => by simp at hsome
    rintro id had front ⟨⟩
    have hcatches := h.catches id _ [e] (by rw [prospect?, htask])
    rw [hengine, Function.update_apply]
    by_cases hid : e.projectId = id
    · rw [if_pos hid.symm, hid]
      rwa [List.singleton_append, MembershipEvent.outlook_cons, if_pos hid] at hcatches
    · rw [if_neg (Ne.symm hid)]
      rwa [List.singleton_append, MembershipEvent.outlook_cons, if_neg hid] at hcatches
  | lagged =>
    cases hinform
    refine h.withTask _ ?_ ?_
    · rintro id had front ⟨⟩
      exact hsurvey id
    · rintro projects (hsome | hsome)
      · cases hsome
      · cases hsome
        exact h.keyed.nodup_ids hperm
  | opened | informed | surveyed => cases hinform

/-- The server acts. -/
theorem act (h : w.IsBehind pending) (hfinish : w.finish? = some w') : w'.IsBehind pending := by
  unfold finish? at hfinish
  split at hfinish
  · next projects htask =>
    cases hfinish
    have hstart := Serving.goesTo_start (h.unique projects (.inl htask)) w.serving.server.config
      w.serving.server.receiver h.housed.numbered
    refine h.finish ⟨hstart.housed, hstart.closed_eq.trans h.isOpen.symm, hstart.receiver_eq,
      hstart.engine_eq⟩ fun id => ?_
    rw [prospect?, htask]
  · next e projects htask =>
    cases hfinish
    refine h.finish (Serving.goesTo_apply h.housed projects e) fun id => ?_
    rw [prospect?, htask]
  · next projects htask =>
    cases hfinish
    refine h.finish (Serving.goesTo_reconcile h.housed (h.unique projects (.inr htask)))
      fun id => ?_
    rw [prospect?, htask]
  · cases hfinish

end IsBehind

/-! ## Runs -/

/-- The server is closed and does nothing any more, or it is behind by some events. -/
def IsSound (w : Pursuit) : Prop :=
  (w.serving.server.closed = true ∧ w.serving.server.receiver = none ∧ w.task = none) ∨
    ∃ pending, w.IsBehind pending

namespace IsSound

variable {w w' : Pursuit}

/-- What keeps a server behind in the same way, and a closed one closed. -/
theorem serve (h : w.IsSound) {v : Serving} (hclosed : v.server.closed = w.serving.server.closed)
    (hreceiver : v.server.receiver = w.serving.server.receiver)
    (hgo : w.serving.IsHoused → w.serving.GoesTo v w.serving.engineOf?) : (w.serve v).IsSound := by
  rcases h with ⟨hdone, hnone, htask⟩ | ⟨pending, hbehind⟩
  · exact .inl ⟨hclosed.trans hdone, hreceiver.trans hnone, htask⟩
  · exact .inr ⟨pending, hbehind.serve (hgo hbehind.housed)⟩

theorem registry (h : w.IsSound) {registry : MemoryRegistry} {unsent : Option MembershipEvent}
    (hbehind : ∀ pending, w.IsBehind pending →
      ∃ pending', { w with registry, unsent }.IsBehind pending') :
    { w with registry, unsent }.IsSound :=
  h.imp id fun ⟨pending, hpending⟩ => hbehind pending hpending

/-- What the server does by itself; a closed one does nothing. -/
theorem hear (h : w.IsSound) (hhear : w.hear? = some w') : w'.IsSound := by
  rcases h with ⟨-, hnone, htask⟩ | ⟨pending, hbehind⟩
  · simp [hear?, hnone, htask] at hhear
  · exact .inr (hbehind.hear hhear)

theorem look (h : w.IsSound) {projects : List Project} (hlook : w.look? projects = some w') :
    w'.IsSound := by
  rcases h with ⟨-, -, htask⟩ | ⟨pending, hbehind⟩
  · simp [look?, htask] at hlook
  · exact .inr ⟨pending, hbehind.look hlook⟩

theorem finish (h : w.IsSound) (hfinish : w.finish? = some w') : w'.IsSound := by
  rcases h with ⟨-, -, htask⟩ | ⟨pending, hbehind⟩
  · simp [finish?, htask] at hfinish
  · exact .inr ⟨pending, hbehind.act hfinish⟩

/-- The cache of access keys changes. -/
theorem cache (h : w.IsSound) (byKey : KeyMap String String) :
    (w.serve (w.deployment.withCache byKey).serving).IsSound :=
  h.serve rfl rfl fun hhoused => ⟨⟨hhoused.numbered, hhoused.housed⟩, rfl, rfl, fun _ => rfl⟩

/-- What another receiver of the events does. -/
theorem broadcast (h : w.IsSound) {f : Broadcast MembershipEvent → Broadcast MembershipEvent}
    (hf : ∀ b receiver events, w.serving.server.receiver = some receiver →
      b.Awaits receiver events → (f b).Awaits receiver events) :
    { w with registry := w.registry.withBroadcast f }.IsSound :=
  h.registry fun pending hbehind => ⟨pending, hbehind.broadcast hf⟩

theorem close (w : Pursuit) {registry : MemoryRegistry} :
    IsSound { w with registry, serving := w.deployment.close.serving, task := none } := by
  have hunfollow : w.deployment.unfollow.serving.server.receiver = none := by
    unfold Deployment.unfollow
    split
    · assumption
    · rfl
  refine .inl ⟨?_, ?_, rfl⟩
  · change (w.deployment.unfollow.serving.close).server.closed = true
    unfold Serving.close
    split
    · assumption
    · rfl
  · change (w.deployment.unfollow.serving.close).server.receiver = none
    unfold Serving.close
    split
    · exact hunfollow
    · rfl

/-- **Every act keeps a pursuit sound.** -/
theorem act (h : w.IsSound) {a : Act} (hact : w.act? a = some w') : w'.IsSound := by
  cases a with
  | change c =>
    simp only [act?] at hact
    split at hact
    · cases hact
    · next hwhole =>
      cases hact
      exact h.registry fun pending hbehind => ⟨_, hbehind.change (by simpa using hwhole) c⟩
  | write c =>
    simp only [act?] at hact
    split at hact
    · cases hact
    · next hwhole =>
      cases hact
      exact h.registry fun pending hbehind => ⟨_, hbehind.write (by simpa using hwhole) c⟩
  | publish =>
    obtain ⟨e, he, rfl⟩ := Option.map_eq_some_iff.1 hact
    exact h.registry fun pending hbehind => ⟨pending, hbehind.publish he⟩
  | hear => exact h.hear hact
  | look projects => exact h.look hact
  | finish => exact h.finish hact
  | step =>
    obtain ⟨w₁, hhear, hrest⟩ := Option.bind_eq_some_iff.1 hact
    obtain ⟨w₂, hlook, hfinish⟩ := Option.bind_eq_some_iff.1 hrest
    exact ((h.hear hhear).look hlook).finish hfinish
  | lookup key =>
    cases hact
    obtain ⟨byKey, hlookup⟩ := w.deployment.exists_lookup_snd key
    rw [hlookup]
    exact h.cache byKey
  | cache byKey =>
    cases hact
    exact h.cache byKey
  | stream serial a =>
    obtain ⟨s, hs, hrest⟩ := Option.bind_eq_some_iff.1 hact
    obtain ⟨⟨s', events⟩, hs', rfl⟩ := Option.map_eq_some_iff.1 hrest
    obtain ⟨hserial, hproject, hengine⟩ := (Stream.move_of_act? hs').label_eq
    refine h.serve rfl rfl fun hhoused => ?_
    obtain ⟨hnumbered, hkeeps⟩ := hhoused.numbered.setStream hs hserial hproject hengine
    exact hhoused.withFleet hnumbered hkeeps
  | engine name e =>
    cases hact
    refine h.serve rfl rfl fun hhoused => ?_
    exact hhoused.withFleet hhoused.numbered (.refl w.serving.fleet)
  | listen =>
    cases hact
    exact h.broadcast fun b receiver events _ hawaits => hawaits.listen
  | hearElse receiver' =>
    simp only [act?] at hact
    split at hact
    · cases hact
    · next hne =>
      cases hact
      exact h.broadcast fun b receiver events hreceiver hawaits =>
        hawaits.hear_of_ne fun heq => hne (heq ▸ hreceiver)
  | dropElse receiver' =>
    simp only [act?] at hact
    split at hact
    · cases hact
    · next hne =>
      cases hact
      exact h.broadcast fun b receiver events hreceiver hawaits =>
        hawaits.moveTo_of_ne none fun heq => hne (heq ▸ hreceiver)
  | close =>
    cases hact
    exact .close w

end IsSound

theorem Reached.isSound {w : Pursuit} (h : Reached w) : w.IsSound := by
  induction h with
  | @start registry hlives config fleet hnumbered w hopen =>
    obtain ⟨b, hb, halive⟩ := hlives.exists_events
    obtain ⟨b', hb', rfl⟩ := Option.map_eq_some_iff.1 hopen
    rw [hb] at hb'
    cases hb'
    refine .inr ⟨[], hlives.isKeyed, ⟨hnumbered, fun _ _ hn => nomatch hn⟩, rfl,
      ⟨b.listen, b.nextReceiver, [], ?_, rfl, b.awaits_listen halive, rfl⟩, ?_, ?_, ?_⟩
    · rw [MemoryRegistry.withBroadcast, hb]
      rfl
    · intro id events hsuffix
      rw [List.suffix_nil.1 hsuffix]
      rfl
    · rintro id had front ⟨⟩
    · rintro projects (hsome | hsome) <;> cases hsome
  | act _ hact ih => exact ih.act hact

/-! ## Whole steps -/

/-- A server that opens without interruption is a deployment that starts. -/
theorem open_eq_start {registry : MemoryRegistry} (hlives : registry.Lives) (config : StreamConfig)
    (fleet : Fleet) :
    (((open? registry config fleet).bind fun w => w.look? w.registry.projects.values).bind
      finish?).map deployment = some (.start (.memory registry) config fleet) := by
  obtain ⟨b, hb, halive⟩ := hlives.exists_events
  simp only [open?, look?_values, Deployment.start, Registry.listen, Registry.events, hb, halive]
  rfl

/-- A step of the server that is not cut is a step of its deployment. -/
theorem IsBehind.step_eq {w : Pursuit} {pending : List MembershipEvent} (h : w.IsBehind pending)
    (htask : w.task = none) : (w.act? .step).map deployment = w.deployment.step? := by
  obtain ⟨b, receiver, events, hb, hreceiver, hawaits, -⟩ := h.awaits
  simp only [act?, hear?, look?_values, Deployment.step?, deployment, Registry.hear,
    Registry.events, htask, hreceiver, hb]
  rcases hawaits.hear with ⟨e, rest, -, hfound, -⟩ | ⟨missed, rest, -, hfound, -⟩ | ⟨-, hfound⟩
  · simp only [hfound]
    rfl
  · simp only [hfound]
    rfl
  · simp only [hfound]
    rfl

/-! ## Convergence -/

/-- The server has exactly the streams that the registry asks for. -/
structure IsCaughtUp (w : Pursuit) : Prop where
  /-- A project has a stream where the registry holds it, and only there. -/
  isSome_iff : ∀ id, (w.serving.server.byId.get? id).isSome ↔ (w.registry.projects.get? id).isSome
  /-- The stream of a project runs on the engine that the registry has for the project. -/
  runs : ∀ id n, w.serving.server.byId.get? id = some n →
    ∃ s p, w.serving.fleet.stream? n = some s ∧ w.registry.projects.get? id = some p ∧
      s.project = id ∧ s.engine = p.engine

/-- Nothing waits for a server that is in the middle of nothing and finds nothing to take. -/
theorem IsBehind.eq_nil {w : Pursuit} {pending : List MembershipEvent} (h : w.IsBehind pending)
    (hwhole : w.unsent = none) (hheard : w.deployment.step? = none) : pending = [] := by
  obtain ⟨b, receiver, events, hb, hreceiver, hawaits, hpending⟩ := h.awaits
  rw [hpending, hwhole, Option.toList_none, List.append_nil]
  simp only [Deployment.step?, deployment, Registry.hear, Registry.events, hreceiver, hb] at hheard
  rcases hawaits.hear with ⟨e, rest, -, hfound, -⟩ | ⟨missed, rest, -, hfound, -⟩ | ⟨hnil, -⟩
  · simp only [hfound, reduceCtorEq] at hheard
  · simp only [hfound, reduceCtorEq] at hheard
  · exact hnil

/-- A server that is behind by nothing has caught up. -/
theorem IsBehind.isCaughtUp {w : Pursuit} (h : w.IsBehind []) (htask : w.task = none) :
    w.IsCaughtUp := by
  have hengine : ∀ id, w.serving.engineOf? id = w.registry.engineOf? id := fun id =>
    h.catches id (w.serving.engineOf? id) [] (by rw [prospect?, htask])
  refine ⟨fun id => ?_, fun id n hn => ?_⟩
  · have hnone : w.serving.server.byId.get? id = none ↔ w.registry.projects.get? id = none := by
      rw [← h.housed.engineOf?_eq_none_iff, hengine, MemoryRegistry.engineOf?,
        Option.map_eq_none_iff]
    rw [← Option.ne_none_iff_isSome, ← Option.ne_none_iff_isSome]
    exact not_congr hnone
  · obtain ⟨s, hs, hproject⟩ := h.housed.housed id n hn
    have hrun := hengine id
    rw [Serving.engineOf?, hn, Option.bind_some, hs, Option.map_some] at hrun
    obtain ⟨p, hp, hpengine⟩ := Option.map_eq_some_iff.1 hrun.symm
    exact ⟨s, p, hs, hp, hproject, hpengine.symm⟩

/-- **The server catches up with its registry**: when it is open, no change is half done, and it is
in the middle of nothing and finds nothing to take, it has a stream for exactly the projects of the
registry, each on the engine that the registry has for it. -/
theorem Reached.catches_up {w : Pursuit} (h : Reached w)
    (hopen : w.serving.server.closed = false) (hwhole : w.unsent = none) (htask : w.task = none)
    (hheard : w.deployment.step? = none) : w.IsCaughtUp := by
  rcases h.isSound with ⟨hclosed, -, -⟩ | ⟨pending, hbehind⟩
  · rw [hopen] at hclosed
    cases hclosed
  · have hnil := hbehind.eq_nil hwhole hheard
    subst hnil
    exact hbehind.isCaughtUp htask

/-- Several acts in a row. -/
theorem Reached.acts {w w' : Pursuit} (h : Reached w) {acts : List Act}
    (hacts : acts.foldlM act? w = some w') : Reached w' :=
  foldlM_induct .act h hacts

/-- A project is removed and added again so often that the server misses some of it. It brings
itself in line while another project comes, and then applies the events that were retained. -/
theorem caught_up_after_lag :
    ∃ w, Reached w ∧ w.serving.server.closed = false ∧ w.unsent = none ∧ w.task = none ∧
      w.deployment.step? = none ∧ w.serving.server.projectIds = ["a", "b"] ∧ w.IsCaughtUp := by
  let registry : MemoryRegistry := .dynamic [⟨"a", ["k"], "e"⟩]
  let first : Pursuit :=
    (open? registry ⟨1, 4, .block, "s"⟩ ⟨.empty, [], fun _ => 0⟩).get (by decide)
  let again : List Act := [.change (.remove "a"), .change (.add ⟨"a", ["k"], "f"⟩)]
  let acts : List Act :=
    [.look [⟨"a", ["k"], "e"⟩], .finish] ++ (List.replicate 33 again).flatten ++
      [.hear, .write (.add ⟨"b", [], "e"⟩), .look [⟨"b", [], "e"⟩, ⟨"a", ["k"], "f"⟩], .publish,
        .finish, .lookup "k"] ++
      List.replicate 65 .step
  let w := (acts.foldlM act? first).get (by decide +kernel)
  have hfirst : Reached first :=
    .start (.dynamic _) _ (fun n s hs => by cases hs) (Option.some_get _).symm
  have hreached : Reached w := hfirst.acts (Option.some_get _).symm
  have hopen : w.serving.server.closed = false := by decide +kernel
  have hwhole : w.unsent = none := by decide +kernel
  have htask : w.task = none := Option.isNone_iff_eq_none.1 (by decide +kernel)
  have hheard : w.deployment.step? = none := Option.isNone_iff_eq_none.1 (by decide +kernel)
  exact ⟨w, hreached, hopen, hwhole, htask, hheard, by decide +kernel,
    hreached.catches_up hopen hwhole htask hheard⟩

end Pursuit

end FlagFanout
