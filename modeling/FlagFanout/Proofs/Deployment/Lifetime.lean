import FlagFanout.Deployment
import FlagFanout.Proofs.Server.Hosting
import FlagFanout.Proofs.Server.Inquiries

/-!
# The lifetime of a server

A server follows its registry, is asked for access keys and is closed some day, and none of this is
done at once. It takes an event, brings its index up to date and then closes the streams that left
it, one after the other. A lookup of a key goes through its parts (`Inquiry`). Closing marks the
server as closed, tells it to stop following its registry, waits until it has finished what it is in
the middle of, gives up the index, and then closes all streams that were in it. Meanwhile the
registry changes, events wait, clients look keys up, and somebody may close the server again.

A `Lifetime` is a server with all of this. Whatever the registry is asked, by a lookup or by a
server that does its duty, it may list any projects. Where nobody comes between, hearing something
and doing it is `Deployment.step?`, a lookup is `Deployment.lookup` and closing is
`Deployment.close` (`Lifetime.deployment_step?`, `Lifetime.deployment_finish`,
`Lifetime.deployment_lookup`, `Lifetime.deployment_closing`).

`Lifetime.Move` lists what an act can be, and `Lifetime.move_of_act?` says that there is nothing
else. What a lifetime keeps goes by its cases.
-/

namespace FlagFanout

/-! ## Duties and stages -/

/-- What a server does once it has taken something from its registry's events. -/
inductive Duty where
  /-- It heard an event. -/
  | apply (e : MembershipEvent)
  /-- It missed some events. -/
  | reconcile
  deriving DecidableEq, Repr

namespace Duty

/-- A server after it did its duty, when the registry holds some projects. -/
def perform (v : Serving) (projects : List Project) : Duty → Serving
  | apply e => v.apply projects e
  | reconcile => v.reconcile projects

/-- The part of a duty that is about the index, with the streams that are to be closed then. -/
def index (v : Serving) (projects : List Project) : Duty → Serving × List Nat
  | apply (.added id) => ((Project.withId? projects id).elim v v.add, [])
  | apply (.removed id) => v.release id
  | apply (.replaced id) => (Project.withId? projects id).elim (v.release id) v.renew
  | reconcile => v.realign projects

theorem perform_eq (v : Serving) (projects : List Project) (duty : Duty) :
    duty.perform v projects = (duty.index v projects).1.retire (duty.index v projects).2 := by
  cases duty with
  | reconcile => rfl
  | apply e =>
    cases e with
    | added id => rfl
    | removed id => rfl
    | replaced id =>
      simp only [perform, index, Serving.apply]
      cases Project.withId? projects id with
      | none => rfl
      | some p => rfl

end Duty

/-- How far the closing of a server has come. -/
inductive Stage where
  | running
  /-- The server is marked as closed. -/
  | marked
  /-- It was told to stop following its registry. -/
  | cancelled
  /-- It gave up its index. -/
  | left
  | done
  deriving DecidableEq, Repr

/-- Whether a server gave up its index. -/
def Stage.isOver : Stage → Bool
  | left => true
  | done => true
  | _ => false

/-! ## Lifetimes -/

/-- A server over a registry, among others who use the same fleet, from its start on. -/
structure Lifetime where
  registry : Registry
  hosting : Hosting
  /-- What the server took from the events and did not look into yet. -/
  duty : Option Duty
  /-- The streams that left the index and are still to be closed. -/
  leaving : List Nat
  stage : Stage
  /-- All lookups of access keys that ever began. -/
  inquiries : List Inquiry

namespace Lifetime

/-- The server itself. -/
def server (w : Lifetime) : Server := w.hosting.serving.server

/-- The fleet of its streams. -/
def fleet (w : Lifetime) : Fleet := w.hosting.serving.fleet

/-- The server with its registry. -/
def deployment (w : Lifetime) : Deployment := ⟨w.registry, w.hosting.serving⟩

/-- The lifetime with another serving. -/
def serve (w : Lifetime) (serving : Serving) : Lifetime :=
  { w with hosting := { w.hosting with serving } }

/-- A server starts over a registry. -/
def start (registry : Registry) (config : StreamConfig) (fleet : Fleet) : Lifetime :=
  { registry := registry.listen.2
    hosting := .start registry.listen.2.projects config registry.listen.1 fleet
    duty := none
    leaving := []
    stage := .running
    inquiries := [] }

theorem deployment_start (registry : Registry) (config : StreamConfig) (fleet : Fleet) :
    (start registry config fleet).deployment = .start registry config fleet := rfl

/-- The server stops listening to its registry. -/
def unfollow (w : Lifetime) : Lifetime :=
  { w.serve w.deployment.unfollow.serving with registry := w.deployment.unfollow.registry }

/-- The server takes an event, or finds that it missed some. `none` if there is nothing to hear, it
is in the middle of something, or it does not listen any more. -/
def hear? (w : Lifetime) : Option Lifetime :=
  match w.duty, w.leaving, w.server.receiver with
  | none, [], some receiver =>
    let (heard, registry) := w.registry.hear receiver
    match heard with
    | .event e => some { w with registry, duty := some (.apply e) }
    | .lagged _ => some { w with registry, duty := some .reconcile }
    | .empty => none
    | .ended => some { w with registry }.unfollow
  | _, _, _ => none

/-- A lookup has come further, and the server with it. -/
def advance (w : Lifetime) (i : Nat) (t : Inquiry × Server) : Lifetime :=
  { w.serve { w.hosting.serving with server := t.2 } with inquiries := w.inquiries.set i t.1 }

/-- The server gives up its index. -/
def clear (w : Lifetime) : Lifetime :=
  { w.serve { w.hosting.serving with
      server := { w.server with byId := .empty, byKey := .empty } } with
    leaving := w.server.byId.values
    stage := .left
    inquiries := w.inquiries.map Inquiry.overtake }

/-- What can happen. -/
inductive Act where
  /-- The registry is changed, in whatever way, or others listen to its events. -/
  | change (registry : Registry)
  /-- The server takes what there is to hear. -/
  | hear
  /-- The server does its duty by its index, when the registry holds some projects. -/
  | finish (projects : List Project)
  /-- A client begins to look an access key up. -/
  | ask (key : String)
  /-- A lookup goes on, when the registry holds some projects. -/
  | proceed (i : Nat) (projects : List Project)
  /-- Somebody closes the server. -/
  | close
  /-- The server is told to stop following its registry. -/
  | cancel
  /-- The server has nothing in hand and stops listening. -/
  | unfollow
  | clear
  /-- The next stream that left the index is closed, or none is left. -/
  | retire
  /-- Others do something with the fleet. -/
  | other (a : Fleet.Act)

/-- One act; `none` where it has to wait or there is nothing to do. -/
def act? (w : Lifetime) : Act → Option Lifetime
  | .change registry => some { w with registry }
  | .hear => w.hear?
  | .finish projects =>
    w.duty.map fun duty =>
      let (v, leaving) := duty.index w.hosting.serving projects
      { w.serve v with duty := none, leaving }
  | .ask key => some { w with inquiries := w.inquiries ++ [w.server.inquire key] }
  | .proceed i projects =>
    w.inquiries[i]?.bind fun l => (l.proceed? w.server projects).map (w.advance i)
  | .close =>
    if w.server.closed then some w
    else
      some { w.serve { w.hosting.serving with server := { w.server with closed := true } } with
        stage := .marked }
  | .cancel =>
    match w.stage with
    | .marked => some { w with stage := .cancelled }
    | _ => none
  | .unfollow =>
    match w.stage, w.duty, w.leaving with
    | .cancelled, none, [] => some w.unfollow
    | _, _, _ => none
  | .clear =>
    match w.stage, w.duty, w.leaving, w.server.receiver with
    | .cancelled, none, [], none => some w.clear
    | _, _, _, _ => none
  | .retire =>
    match w.leaving, w.stage with
    | n :: rest, _ =>
      some { w.serve { w.hosting.serving with fleet := w.fleet.close n } with leaving := rest }
    | [], .left => some { w with stage := .done }
    | [], _ => none
  | .other a => (w.hosting.other? a).map fun hosting => { w with hosting }

/-- A new server came to `w` by acts in some order. -/
inductive Reached : Lifetime → Prop
  | start (registry : Registry) (config : StreamConfig) {fleet : Fleet} (hfleet : fleet.IsSound) :
    Reached (start registry config fleet)
  | act {w w' : Lifetime} {a : Act} (hreached : Reached w) (hact : w.act? a = some w') : Reached w'

variable {w w' : Lifetime}

theorem Reached.acts (h : Reached w) {acts : List Act} (hacts : acts.foldlM act? w = some w') :
    Reached w' := foldlM_induct (fun hnow hact => .act hnow hact) h hacts

/-! ## What an act can be -/

/-- The cases of an act. -/
inductive Move (w : Lifetime) : Lifetime → Prop
  /-- Only the registry changes, if anything does. -/
  | change (registry : Registry) : Move w { w with registry }
  /-- The server hears something. -/
  | hear (registry : Registry) (duty : Option Duty) (hleaving : w.leaving = [])
    (hreceiver : w.server.receiver ≠ none) : Move w { w with registry, duty }
  | unfollow (registry : Registry) :
    Move w { w.serve { w.hosting.serving with server := { w.server with receiver := none } } with
      registry }
  /-- The server does its duty by its index. -/
  | finish {duty : Duty} (hduty : w.duty = some duty) (projects : List Project) :
    Move w { w.serve (duty.index w.hosting.serving projects).1 with
      duty := none
      leaving := (duty.index w.hosting.serving projects).2 }
  /-- A lookup begins. -/
  | ask (key : String) : Move w { w with inquiries := w.inquiries ++ [w.server.inquire key] }
  /-- A lookup goes on. -/
  | proceed (i : Nat) {l l' : Inquiry} {s' : Server} (hl : w.inquiries[i]? = some l)
    (hpart : l.Part w.server l' s') : Move w (w.advance i (l', s'))
  /-- The server is marked as closed. -/
  | mark (hopen : w.server.closed = false) :
    Move w { w.serve { w.hosting.serving with server := { w.server with closed := true } } with
      stage := .marked }
  | cancel (hstage : w.stage = .marked) : Move w { w with stage := .cancelled }
  | clear (hstage : w.stage = .cancelled) (hduty : w.duty = none) (hleaving : w.leaving = [])
    (hreceiver : w.server.receiver = none) : Move w w.clear
  /-- The next stream is closed. -/
  | retire {n : Nat} {rest : List Nat} (hleaving : w.leaving = n :: rest) :
    Move w { w.serve { w.hosting.serving with fleet := w.fleet.close n } with leaving := rest }
  /-- No stream is left to be closed. -/
  | complete (hstage : w.stage = .left) (hleaving : w.leaving = []) :
    Move w { w with stage := .done }
  | other {a : Fleet.Act} {hosting : Hosting} (hother : w.hosting.other? a = some hosting) :
    Move w { w with hosting }

theorem move_unfollow (w : Lifetime) (registry : Registry) :
    w.Move (unfollow { w with registry }) := by
  unfold unfollow Deployment.unfollow
  split
  · exact .change registry
  · exact .unfollow _

theorem move_of_hear? (h : w.hear? = some w') : w.Move w' := by
  unfold hear? at h
  split at h
  · next hduty hleaving hreceiver =>
    have hlistens : w.server.receiver ≠ none := hreceiver ▸ Option.some_ne_none _
    split at h
    split at h
    · cases h
      exact .hear _ _ hleaving hlistens
    · cases h
      exact .hear _ _ hleaving hlistens
    · cases h
    · cases h
      exact w.move_unfollow _
  · cases h

/-- A lookup that goes on does one of its parts. -/
theorem proceed_cases {i : Nat} {projects : List Project}
    (h : w.act? (.proceed i projects) = some w') : ∃ l l' s', w.inquiries[i]? = some l ∧
      l.Part w.server l' s' ∧ w' = w.advance i (l', s') := by
  obtain ⟨l, hl, hproceed⟩ := Option.bind_eq_some_iff.1 h
  obtain ⟨⟨l', s'⟩, ht, rfl⟩ := Option.map_eq_some_iff.1 hproceed
  exact ⟨l, l', s', hl, Inquiry.part_of_proceed? ht, rfl⟩

/-- **An act is one of the moves.** -/
theorem move_of_act? {a : Act} (h : w.act? a = some w') : w.Move w' := by
  cases a with
  | change registry =>
    cases h
    exact .change registry
  | hear => exact move_of_hear? h
  | finish projects =>
    obtain ⟨duty, hduty, rfl⟩ := Option.map_eq_some_iff.1 h
    exact .finish hduty projects
  | ask key =>
    cases h
    exact .ask key
  | proceed i projects =>
    obtain ⟨l, l', s', hl, hpart, rfl⟩ := proceed_cases h
    exact .proceed i hl hpart
  | close =>
    simp only [act?] at h
    split at h
    · cases h
      exact .change w.registry
    · next hopen =>
      cases h
      exact .mark (Bool.eq_false_iff.2 hopen)
  | cancel =>
    simp only [act?] at h
    split at h
    · next hstage =>
      cases h
      exact .cancel hstage
    · cases h
  | unfollow =>
    simp only [act?] at h
    split at h
    · cases h
      exact w.move_unfollow w.registry
    · cases h
  | clear =>
    simp only [act?] at h
    split at h
    · next hstage hduty hleaving hreceiver =>
      cases h
      exact .clear hstage hduty hleaving hreceiver
    · cases h
  | retire =>
    simp only [act?] at h
    split at h
    · next hleaving =>
      cases h
      exact .retire hleaving
    · next hleaving hstage =>
      cases h
      exact .complete hstage hleaving
    · cases h
  | other a =>
    obtain ⟨hosting, hother, rfl⟩ := Option.map_eq_some_iff.1 h
    exact .other hother

/-! ## Nobody comes between -/

/-- All streams that left the index are closed one after the other. -/
theorem foldlM_retire (leaving : List Nat) (w : Lifetime) (h : w.leaving = leaving) :
    (List.replicate leaving.length .retire).foldlM act? w =
      some { w.serve (w.hosting.serving.retire leaving) with leaving := [] } := by
  induction leaving generalizing w with
  | nil =>
    obtain ⟨registry, hosting, duty, leaving, stage, inquiries⟩ := w
    cases h
    rfl
  | cons n rest ih =>
    let next : Lifetime :=
      { w.serve { w.hosting.serving with fleet := w.fleet.close n } with leaving := rest }
    have hact : w.act? .retire = some next := by simp only [act?, h]; rfl
    rw [List.length_cons, List.replicate_succ, List.foldlM_cons, hact]
    exact ih next rfl

/-- To hear something and to do it at once is a step of the deployment. -/
theorem deployment_step? (hduty : w.duty = none) (hleaving : w.leaving = []) :
    w.deployment.step? = w.hear?.map fun next =>
      let v := next.hosting.serving
      ⟨next.registry, next.duty.elim v (Duty.perform v next.registry.projects)⟩ := by
  have hreceiver : w.deployment.serving.server.receiver = w.server.receiver := rfl
  have hregistry : w.deployment.registry = w.registry := rfl
  unfold Deployment.step? hear?
  rw [hreceiver, hregistry, hduty, hleaving]
  cases hw : w.server.receiver with
  | none => rfl
  | some receiver =>
    dsimp only
    cases (w.registry.hear receiver).1 with
    | event | lagged | empty | ended => rfl

/-- A duty is done by its part about the index and the closing of the streams that left. -/
theorem deployment_finish {duty : Duty} (hduty : w.duty = some duty) (projects : List Project) :
    ∃ n, (.finish projects :: List.replicate n .retire).foldlM act? w =
      some { w.serve (duty.perform w.hosting.serving projects) with
        duty := none
        leaving := [] } := by
  let next : Lifetime :=
    { w.serve (duty.index w.hosting.serving projects).1 with
      duty := none
      leaving := (duty.index w.hosting.serving projects).2 }
  have hact : w.act? (.finish projects) = some next := by rw [act?, hduty]; rfl
  refine ⟨next.leaving.length, ?_⟩
  rw [List.foldlM_cons, hact, Duty.perform_eq]
  exact foldlM_retire next.leaving next rfl

theorem advance_self {i : Nat} {l : Inquiry} (hl : w.inquiries[i]? = some l) :
    w.advance i (l, w.server) = w := by
  obtain ⟨hi, rfl⟩ := List.getElem?_eq_some_iff.1 hl
  rw [advance, List.set_getElem_self]
  rfl

theorem advance_advance (w : Lifetime) (i : Nat) (t t' : Inquiry × Server) :
    (w.advance i t).advance i t' = w.advance i t' := by
  simp only [advance, serve, List.set_set]

/-- A lookup goes on without interruption. -/
theorem exists_foldlM_proceed {i : Nat} {l : Inquiry} (hl : w.inquiries[i]? = some l)
    (projects : List Project) (k : Nat) :
    ∃ n ≤ k, (List.replicate n (.proceed i projects)).foldlM act? w =
      some (w.advance i (Inquiry.run projects k (l, w.server))) := by
  induction k generalizing w l with
  | zero => exact ⟨0, Nat.le_refl 0, congrArg some (advance_self hl).symm⟩
  | succ k ih =>
    cases ht : l.proceed? w.server projects with
    | none =>
      refine ⟨0, Nat.zero_le _, ?_⟩
      rw [Inquiry.run, ht, Option.elim_none, advance_self hl]
      rfl
    | some t =>
      have hact : w.act? (.proceed i projects) = some (w.advance i t) := by
        rw [act?, hl, Option.bind_some, ht, Option.map_some]
      obtain ⟨hi, -⟩ := List.getElem?_eq_some_iff.1 hl
      have ht' : (w.advance i t).inquiries[i]? = some t.1 := List.getElem?_set_self hi
      obtain ⟨n, hn, hrun⟩ := ih ht'
      refine ⟨n + 1, Nat.succ_le_succ hn, ?_⟩
      rw [List.replicate_succ, List.foldlM_cons, hact, Inquiry.run, ht, Option.elim_some]
      exact hrun.trans (congrArg some (advance_advance ..))

/-- **A lookup without interruption** is that of the deployment. -/
theorem deployment_lookup (w : Lifetime) (key : String) : ∃ n w',
    (.ask key :: List.replicate n (.proceed w.inquiries.length w.registry.projects)).foldlM act? w =
      some w' ∧ w'.deployment = (w.deployment.lookup key).2 ∧
      (w'.inquiries.getLast?).map (·.progress) =
        some (.returned (w.deployment.lookup key).1) := by
  let asked : Lifetime := { w with inquiries := w.inquiries ++ [w.server.inquire key] }
  have hl : asked.inquiries[w.inquiries.length]? = some (w.server.inquire key) :=
    List.getElem?_concat_length
  obtain ⟨n, -, hrun⟩ := exists_foldlM_proceed hl w.registry.projects 4
  have hserver : asked.server = w.server := rfl
  rw [hserver, Inquiry.run_inquire] at hrun
  refine ⟨n, _, hrun, rfl, ?_⟩
  simp [advance, asked, Inquiry.reach, Deployment.lookup, deployment, server]

/-- What there is to do when a server closes and nobody comes between. -/
def closing (w : Lifetime) : List Act :=
  [.close, .cancel, .unfollow, .clear] ++ List.replicate (w.server.byId.values.length + 1) .retire

/-- **Closing without interruption** closes the server with its registry. -/
theorem deployment_closing (hstage : w.stage = .running) (hduty : w.duty = none)
    (hleaving : w.leaving = []) (hopen : w.server.closed = false) :
    ∃ w', w.closing.foldlM act? w = some w' ∧ w'.deployment = w.deployment.close ∧
      w'.stage = .done := by
  obtain ⟨registry, ⟨⟨⟨config, byId, byKey, closed, receiver⟩, fleet⟩, guests⟩, duty, leaving,
    stage, inquiries⟩ := w
  cases hstage
  cases hduty
  cases hleaving
  cases hopen
  -- the registry loses the server's receiver, if it has one
  let cleared (registry : Registry) : Lifetime :=
    ⟨registry, ⟨⟨⟨config, .empty, .empty, true, none⟩, fleet⟩, guests⟩, none, byId.values, .left,
      inquiries.map Inquiry.overtake⟩
  have hretire (registry : Registry) :
      (List.replicate (byId.values.length + 1) .retire).foldlM act? (cleared registry) =
        some { (cleared registry).serve ((cleared registry).hosting.serving.retire byId.values) with
          leaving := []
          stage := .done } := by
    rw [List.replicate_succ', List.foldlM_append, foldlM_retire byId.values _ rfl]
    rfl
  cases receiver with
  | none => exact ⟨_, (List.foldlM_append ..).trans (hretire registry), rfl, rfl⟩
  | some receiver =>
    exact ⟨_, (List.foldlM_append ..).trans (hretire (registry.withEvents (·.drop receiver))),
      rfl, rfl⟩

end Lifetime

end FlagFanout
