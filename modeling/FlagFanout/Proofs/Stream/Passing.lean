import FlagFanout.Proofs.Stream.Accounting
import FlagFanout.Proofs.Stream.Bystanders

/-!
# Completed passes

A pass over the channels takes many steps. Between two of them clients may take messages out of
their mailboxes, and where a full mailbox makes the worker wait, only that lets the pass go on.

* `Worker.Advance` lists what a step of a pass can be (`Worker.advance?_eq_some_iff`).
* `Worker.Passing` is a pass from where the worker stands to its end, with what happens on the way.
* A pass in which no client takes anything has one outcome (`Worker.Passing.unique`).
* The books of a worker are balanced along a pass (`Worker.Passing.steady`), so at the end of one
  the gauges are a matter of the index (`Balanced.eq_of_idle`).

What the engine serves may change while a pass goes on: `engine place` is what it serves when the
worker comes to the channel at `place`.
-/

namespace FlagFanout

/-! ## Who hears of a push -/

namespace Mailboxes

/-- Whether the receiver of a connection exists. -/
def hears (b : Mailboxes) (id : ConnectionId) : Bool := (b.get? id.number).any (·.listening)

theorem hears_iff {b : Mailboxes} {policy : DeliveryPolicy} {id : ConnectionId} :
    b.hears id = true ↔ b.attempt policy id.number ≠ .disconnected :=
  b.any_listening_iff policy id.number

theorem hears_eq_false_iff {b : Mailboxes} {policy : DeliveryPolicy} {id : ConnectionId} :
    b.hears id = false ↔ b.attempt policy id.number = .disconnected := by
  rw [← Bool.not_eq_true, hears_iff, not_not]

/-- What leaves the receivers alone leaves open who hears. -/
theorem hears_modify (b : Mailboxes) (n : Nat) {f : Mailbox → Mailbox}
    (hf : ∀ box, (f box).listening = box.listening) : (b.modify n f).hears = b.hears := by
  funext id
  unfold hears
  rw [get?_modify]
  split
  · cases b.get? id.number with
    | none => rfl
    | some box => exact hf box
  · rfl

@[simp] theorem hears_offer (b : Mailboxes) (policy : DeliveryPolicy) (n : Nat) (m : Message) :
    (b.offer policy n m).hears = b.hears :=
  b.hears_modify n fun box => by
    unfold Mailbox.offer
    split <;> rfl

end Mailboxes

/-! ## What moved -/

namespace ChannelIndex

/-- The channel at a place after a change, with the message to push, if a value moved there. -/
def moved? (engine : Place → Evaluator) (i : ChannelIndex) (place : Place) :
    Option (Channel × Message) :=
  (i.find? place.1 place.2).bind fun c =>
    let found := c.last.refresh (engine place) c.context
    found.2.map fun m => ({ c with last := found.1 }, m)

variable {engine : Place → Evaluator}

theorem refresh_of_moved? {i : ChannelIndex} {place : Place} {c : Channel} {m : Message}
    (h : i.moved? engine place = some (c, m)) :
    ∃ c₀, i.find? place.1 place.2 = some c₀ ∧
      c₀.last.refresh (engine place) c₀.context = (c.last, some m) ∧
        c = { c₀ with last := c.last } := by
  obtain ⟨c₀, hfind, hmap⟩ := Option.bind_eq_some_iff.1 h
  obtain ⟨m', hm', heq⟩ := Option.map_eq_some_iff.1 hmap
  cases heq
  exact ⟨c₀, hfind, Prod.ext rfl hm', rfl⟩

theorem moved?_eq_none_iff {i : ChannelIndex} {place : Place} :
    i.moved? engine place = none ↔ ∀ c, i.find? place.1 place.2 = some c →
      (c.last.refresh (engine place) c.context).2 = none := by
  unfold moved?
  rw [Option.bind_eq_none_iff]
  exact forall₂_congr fun c _ => Option.map_eq_none_iff

theorem moved?_of_refresh {i : ChannelIndex} {place : Place} {c : Channel} {last : Snapshot}
    {m : Message} (hfind : i.find? place.1 place.2 = some c)
    (hrefresh : c.last.refresh (engine place) c.context = (last, some m)) :
    i.moved? engine place = some ({ c with last }, m) := by
  unfold moved?
  rw [hfind, Option.bind_some, hrefresh]
  rfl

theorem members_of_moved? {i : ChannelIndex} {place : Place} {c : Channel} {m : Message}
    (h : i.moved? engine place = some (c, m)) : c.members = i.membersAt place := by
  obtain ⟨c₀, hfind, -, hc⟩ := refresh_of_moved? h
  rw [ChannelIndex.membersAt_of_find? hfind, hc]

theorem moved?_put_of_ne (i : ChannelIndex) {place place' : Place} (hne : place' ≠ place)
    (c : Channel) :
    (i.put place.1 place.2 c).moved? engine place' = i.moved? engine place' := by
  unfold moved?
  rw [ChannelIndex.find?_put, if_neg hne]

end ChannelIndex

namespace Worker

/-! ## What a step of a pass can be -/

/-- The next step of a pass. What the engine serves only matters where a channel is visited. -/
def advance? (w : Worker) (policy : DeliveryPolicy) (engine : Place → Evaluator)
    (boxes : Mailboxes) : Option Result :=
  w.passStep? policy (engine (w.phase.todo.headD (.all, 0))) boxes

/-- The cases of a step of a pass. -/
inductive Advance (policy : DeliveryPolicy) (engine : Place → Evaluator) (w : Worker)
    (boxes : Mailboxes) : Result → Prop
  /-- Nothing moved in the next channel. -/
  | pass {pass : Pass} {place : Place} {todo : List Place} (hphase : w.phase = .visiting pass)
    (htodo : pass.todo = place :: todo)
    (hquiet : ∀ c, w.index.find? place.1 place.2 = some c →
      (c.last.refresh (engine place) c.context).2 = none) :
    Advance policy engine w boxes ⟨{ w with phase := .visiting { pass with todo } }, boxes, []⟩
  /-- Something moved in the next channel. -/
  | produce {pass : Pass} {place : Place} {todo : List Place} {c : Channel} {last : Snapshot}
    {m : Message} (hphase : w.phase = .visiting pass) (htodo : pass.todo = place :: todo)
    (hfind : w.index.find? place.1 place.2 = some c)
    (hrefresh : c.last.refresh (engine place) c.context = (last, some m)) :
    Advance policy engine w boxes
      ⟨{ w with
          index := w.index.put place.1 place.2 { c with last }
          phase := .pushing { pass with todo } ⟨place, m, [], c.members, .zero⟩ }, boxes, []⟩
  /-- The pass is over. -/
  | endPass {pass : Pass} (hphase : w.phase = .visiting pass) (htodo : pass.todo = []) :
    Advance policy engine w boxes ⟨(w.endPass pass).1, boxes, (w.endPass pass).2⟩
  /-- The next member is offered the message. -/
  | serve {pass : Pass} {push : Push} {id : ConnectionId} {waiting : List ConnectionId}
    {out : Attempt} (hphase : w.phase = .pushing pass push)
    (hwaiting : push.waiting = id :: waiting)
    (hattempt : boxes.attempt policy id.number = out) (hout : out ≠ .waiting) :
    Advance policy engine w boxes
      ⟨{ w with
          phase := .pushing pass { push with
            served := if out = .disconnected then push.served else push.served ++ [id]
            waiting
            tally := push.tally + out.tally } },
        boxes.offer policy id.number push.message, out.trace id push.message⟩
  /-- The mailbox of the next member has no room, and the worker waits. -/
  | stall {pass : Pass} {push : Push} {id : ConnectionId} {waiting : List ConnectionId}
    (hphase : w.phase = .pushing pass push) (hwaiting : push.waiting = id :: waiting)
    (hout : boxes.attempt policy id.number = .waiting) :
    Advance policy engine w boxes ⟨{ w with phase := .stalled pass push }, boxes, []⟩
  /-- There is room again. -/
  | resume {pass : Pass} {push : Push} (hphase : w.phase = .stalled pass push)
    (hroom : canResume policy boxes push = true) :
    Advance policy engine w boxes ⟨{ w with phase := .pushing pass push }, boxes, []⟩
  /-- Every member was offered the message. -/
  | endPush {pass : Pass} {push : Push} (hphase : w.phase = .pushing pass push)
    (hwaiting : push.waiting = []) :
    Advance policy engine w boxes ⟨(w.endPush pass push).1, boxes, (w.endPush pass push).2⟩

variable {policy : DeliveryPolicy} {engine : Place → Evaluator} {w : Worker} {boxes : Mailboxes}
  {r : Result}

theorem advance?_of_todo {pass : Pass} {place : Place} {todo : List Place}
    (hphase : w.phase = .visiting pass) (htodo : pass.todo = place :: todo) :
    w.advance? policy engine boxes =
      some ⟨w.visit (engine place) { pass with todo } place, boxes, []⟩ := by
  have hhead : w.phase.todo.headD (.all, 0) = place := by
    rw [hphase]
    exact congrArg (List.headD · (.all, 0)) htodo
  unfold advance?
  rw [hhead]
  simp only [passStep?, hphase, htodo]

theorem advance_of_visiting {pass : Pass} (hphase : w.phase = .visiting pass)
    (h : w.advance? policy engine boxes = some r) : Advance policy engine w boxes r := by
  cases htodo : pass.todo with
  | nil =>
    simp only [advance?, passStep?, hphase, htodo, Option.some.injEq] at h
    subst h
    exact .endPass hphase htodo
  | cons place todo =>
    rw [advance?_of_todo hphase htodo] at h
    cases h
    rcases visit_cases w (engine place) { pass with todo } place with
      ⟨hvisit, hquiet⟩ | ⟨c, last, m, hfind, hrefresh, hvisit⟩
    · rw [hvisit]
      exact .pass hphase htodo hquiet
    · rw [hvisit]
      exact .produce hphase htodo hfind hrefresh

theorem advance_of_pushing {pass : Pass} {push : Push} (hphase : w.phase = .pushing pass push)
    (h : w.advance? policy engine boxes = some r) : Advance policy engine w boxes r := by
  simp only [advance?, passStep?, hphase] at h
  cases hwaiting : push.waiting with
  | nil =>
    simp only [hwaiting, Option.some.injEq] at h
    subst h
    exact .endPush hphase hwaiting
  | cons id waiting =>
    simp only [hwaiting, Option.some.injEq] at h
    subst h
    by_cases hout : boxes.attempt policy id.number = .waiting
    · simp only [deliver, hout]
      rw [Mailboxes.offer_of_ne_sent (by simp [hout])]
      exact .stall hphase hwaiting hout
    · rw [deliver_eq pass push waiting hout]
      exact .serve hphase hwaiting rfl hout

/-- **A step of a pass is one of the cases**, and each of the cases is a step. -/
theorem advance?_eq_some_iff :
    w.advance? policy engine boxes = some r ↔ Advance policy engine w boxes r := by
  constructor
  · intro h
    cases hphase : w.phase with
    | idle => simp [advance?, passStep?, hphase] at h
    | stopped => simp [advance?, passStep?, hphase] at h
    | visiting pass => exact advance_of_visiting hphase h
    | pushing pass push => exact advance_of_pushing hphase h
    | stalled pass push =>
      simp only [advance?, passStep?, hphase] at h
      split at h
      · next hroom =>
        cases h
        exact .resume hphase hroom
      · cases h
  · intro h
    cases h with
    | @pass pass place todo hphase htodo hquiet =>
      rw [advance?_of_todo hphase htodo]
      rcases visit_cases w (engine place) { pass with todo } place with
        ⟨hvisit, -⟩ | ⟨c, last, m, hfind, hrefresh, -⟩
      · rw [hvisit]
      · have hnone := hquiet c hfind
        rw [hrefresh] at hnone
        cases hnone
    | @produce pass place todo c last m hphase htodo hfind hrefresh =>
      rw [advance?_of_todo hphase htodo]
      simp only [visit, hfind, hrefresh]
    | endPass hphase htodo => simp only [advance?, passStep?, hphase, htodo]
    | @serve pass push id waiting out hphase hwaiting hattempt hout =>
      subst hattempt
      simp only [advance?, passStep?, hphase, hwaiting]
      rw [deliver_eq pass push waiting hout]
    | @stall pass push id waiting hphase hwaiting hout =>
      simp only [advance?, passStep?, hphase, hwaiting, deliver, hout]
      rw [Mailboxes.offer_of_ne_sent (by simp [hout])]
    | resume hphase hroom => simp only [advance?, passStep?, hphase, hroom, if_true]
    | endPush hphase hwaiting => simp only [advance?, passStep?, hphase, hwaiting]

/-- No step of a pass makes or breaks a receiver. -/
theorem Advance.hears_eq (h : Advance policy engine w boxes r) :
    r.mailboxes.hears = boxes.hears := by
  cases h with
  | serve => exact Mailboxes.hears_offer ..
  | pass | produce | endPass | stall | resume | endPush => rfl

theorem advance?_of_idle (hphase : w.phase = .idle) : w.advance? policy engine boxes = none := by
  simp only [advance?, passStep?, hphase]

/-! ## Passes to their end -/

/-- A pass from where the worker stands to its end, with what happens on the way: the steps of the
worker, and what clients take out of their mailboxes meanwhile. -/
inductive Passing (policy : DeliveryPolicy) (engine : Place → Evaluator) :
    Worker → Mailboxes → List Event → Worker → Mailboxes → Prop
  | finished {w : Worker} {boxes : Mailboxes} (hphase : w.phase = .idle) :
    Passing policy engine w boxes [] w boxes
  | step {w w' : Worker} {boxes boxes' : Mailboxes} {r : Result} {events : List Event}
    (hstep : w.advance? policy engine boxes = some r)
    (hrest : Passing policy engine r.worker r.mailboxes events w' boxes') :
    Passing policy engine w boxes (r.effects.map .effect ++ events) w' boxes'
  | take {w w' : Worker} {boxes boxes' : Mailboxes} {id : ConnectionId} {box : Mailbox}
    {m : Message} {rest : List Message} {events : List Event} (hphase : w.phase ≠ .idle)
    (hbox : boxes.get? id.number = some box) (hmessages : box.messages = m :: rest)
    (hrest : Passing policy engine w
      (boxes.modify id.number fun b => { b with messages := rest }) events w' boxes') :
    Passing policy engine w boxes (.taken id m :: events) w' boxes'

namespace Passing

variable {w' : Worker} {boxes' : Mailboxes} {events : List Event}

/-- Once the worker is between two jobs, the pass is over. -/
theorem eq_of_idle (h : Passing policy engine w boxes events w' boxes')
    (hphase : w.phase = .idle) : events = [] ∧ w' = w ∧ boxes' = boxes := by
  cases h with
  | finished => exact ⟨rfl, rfl, rfl⟩
  | step hstep =>
    rw [advance?_of_idle hphase] at hstep
    cases hstep
  | take hpassing => exact absurd hphase hpassing

theorem phase_eq (h : Passing policy engine w boxes events w' boxes') : w'.phase = .idle := by
  induction h with
  | finished hphase => exact hphase
  | step hstep hrest ih => exact ih
  | take hphase hbox hmessages hrest ih => exact ih

/-- A pass in which nobody takes anything is a step of the worker and the rest of the pass. -/
theorem cases_effects {fx : List Effect}
    (h : Passing policy engine w boxes (fx.map .effect) w' boxes') (hphase : w.phase ≠ .idle) :
    ∃ r fx', w.advance? policy engine boxes = some r ∧ fx = r.effects ++ fx' ∧
      Passing policy engine r.worker r.mailboxes (fx'.map .effect) w' boxes' := by
  generalize hevents : fx.map Event.effect = events at h
  cases h with
  | finished hidle => exact absurd hidle hphase
  | @step _ _ _ _ r events hstep hrest =>
    obtain ⟨fx₁, fx₂, rfl, hfx₁, rfl⟩ := List.map_eq_append_iff.1 hevents
    have hinj : Function.Injective Event.effect := fun _ _ heq => Event.effect.inj heq
    exact ⟨r, fx₂, hstep, by rw [List.map_injective_iff.2 hinj hfx₁], hrest⟩
  | take =>
    cases fx with
    | nil => cases hevents
    | cons f rest => cases hevents

/-- **Undisturbed, a pass has one outcome.** -/
theorem unique {w₁ w₂ : Worker} {boxes₁ boxes₂ : Mailboxes} {fx₁ fx₂ : List Effect}
    (h : Passing policy engine w boxes (fx₁.map .effect) w₁ boxes₁)
    (h' : Passing policy engine w boxes (fx₂.map .effect) w₂ boxes₂) :
    w₂ = w₁ ∧ boxes₂ = boxes₁ ∧ fx₂ = fx₁ := by
  generalize hevents : fx₁.map Event.effect = events at h
  induction h generalizing fx₁ fx₂ with
  | finished hphase =>
    obtain ⟨hnil, hw, hboxes⟩ := h'.eq_of_idle hphase
    rw [List.map_eq_nil_iff] at hevents hnil
    exact ⟨hw, hboxes, by rw [hevents, hnil]⟩
  | @step w _ boxes _ r events hstep hrest ih =>
    have hphase : w.phase ≠ .idle := fun hidle => by
      rw [advance?_of_idle hidle] at hstep
      cases hstep
    obtain ⟨r', fx', hstep', rfl, hrest'⟩ := h'.cases_effects hphase
    obtain rfl : r = r' := Option.some.inj (hstep.symm.trans hstep')
    obtain ⟨fx, fx'', rfl, hfx, rfl⟩ := List.map_eq_append_iff.1 hevents
    have hinj : Function.Injective Event.effect := fun _ _ heq => Event.effect.inj heq
    obtain ⟨hw, hboxes, rfl⟩ := ih hrest' rfl
    exact ⟨hw, hboxes, by rw [List.map_injective_iff.2 hinj hfx]⟩
  | take =>
    cases fx₁ with
    | nil => cases hevents
    | cons f rest => cases hevents

end Passing

end Worker

/-! ## The books along a pass -/

/-- The books of a worker are balanced, and what it pushes to is there. -/
structure Steady (w : Worker) (log : List Event) : Prop where
  balanced : Balanced w log
  find?_of_push? : ∀ push, w.phase.push? = some push →
    ∃ c, w.index.find? push.place.1 push.place.2 = some c

namespace Steady

variable {w : Worker} {log : List Event}

theorem beginPass (h : Balanced w log) (hphase : w.phase = .idle) (places : List Place) :
    Steady (w.beginPass places) log where
  balanced := h.with_phase (by simp [hphase]) (by rw [hphase]; rfl) fun push c hp => nomatch hp
  find?_of_push? push hp := nomatch hp

/-- Another phase of a pass with the same members found gone and the same push, or none. -/
theorem with_phase (h : Steady w log) {phase : Phase} (hrunning : w.phase ≠ .stopped)
    (hpruned : phase.pruned = w.phase.pruned)
    (hpush : ∀ push, phase.push? = some push → w.phase.push? = some push) :
    Steady { w with phase } log where
  balanced := h.balanced.with_phase hrunning hpruned fun push c hp =>
    h.balanced.push_length push c (hpush push hp)
  find?_of_push? push hp := h.find?_of_push? push (hpush push hp)

theorem advance (h : Steady w log) {policy : DeliveryPolicy} {engine : Place → Evaluator}
    {boxes : Mailboxes} {r : Worker.Result} (hadvance : Worker.Advance policy engine w boxes r) :
    Steady r.worker (log ++ r.effects.map .effect) := by
  cases hadvance with
  | pass hphase =>
    rw [List.map_nil, List.append_nil]
    exact h.with_phase (by simp [hphase]) (by rw [hphase]; rfl) fun push hp => nomatch hp
  | @produce pass place todo c last m hphase htodo hfind =>
    refine ⟨(h.balanced.produce hphase hfind).append (fun _ => rfl) fun _ => rfl, fun push hp => ?_⟩
    cases hp
    exact ⟨_, ChannelIndex.find?_put_self ..⟩
  | @endPass pass hphase =>
    refine ⟨h.balanced.endPass hphase, fun push hp => ?_⟩
    rw [Worker.endPass_phase] at hp
    cases hp
  | @serve pass push id waiting out hphase hwaiting hattempt hout =>
    refine ⟨(h.balanced.serve hphase hwaiting hout).append (openedIn_trace · ..)
      (closedIn_trace · ..), fun push' hp => ?_⟩
    cases hp
    exact h.find?_of_push? push (by rw [hphase]; rfl)
  | stall hphase =>
    rw [List.map_nil, List.append_nil]
    exact h.with_phase (by simp [hphase]) (by rw [hphase]; rfl) fun push hp => by rwa [hphase]
  | resume hphase =>
    rw [List.map_nil, List.append_nil]
    exact h.with_phase (by simp [hphase]) (by rw [hphase]; rfl) fun push hp => by rwa [hphase]
  | @endPush pass push hphase hwaiting =>
    obtain ⟨c, hfind⟩ := h.find?_of_push? push (by rw [hphase]; rfl)
    refine ⟨(h.balanced.endPush hphase hwaiting hfind).append (openedIn_report · ..)
      (closedIn_report · ..), fun push' hp => ?_⟩
    rw [Worker.endPush_phase] at hp
    cases hp

end Steady

theorem Worker.Passing.steady {policy : DeliveryPolicy} {engine : Place → Evaluator}
    {w w' : Worker} {boxes boxes' : Mailboxes} {events : List Event}
    (h : Passing policy engine w boxes events w' boxes') {log : List Event}
    (hsteady : Steady w log) :
    Steady w' (log ++ events) := by
  induction h generalizing log with
  | finished hphase => rwa [List.append_nil]
  | step hstep hrest ih =>
    rw [← List.append_assoc]
    exact ih (hsteady.advance (advance?_eq_some_iff.1 hstep))
  | take hphase hbox hmessages hrest ih =>
    rw [List.append_cons]
    exact ih ⟨hsteady.balanced.append (fun _ => rfl) fun _ => rfl, hsteady.find?_of_push?⟩

/-- Between two jobs a worker is its channels and what it sent: the gauges follow. -/
theorem Balanced.eq_of_idle {w w' : Worker} {log log' : List Event} (h : Balanced w log)
    (h' : Balanced w' log') (hphase : w.phase = .idle) (hphase' : w'.phase = .idle)
    (hfind : ∀ place : Place,
      w.index.find? place.1 place.2 = w'.index.find? place.1 place.2)
    (hsent : w.counters.sent = w'.counters.sent)
    (hdropped : w.counters.dropped = w'.counters.dropped) : w = w' := by
  obtain ⟨index, ⟨openConnections, channels, sent, dropped⟩, phase⟩ := w
  obtain ⟨index', ⟨openConnections', channels', sent', dropped'⟩, phase'⟩ := w'
  obtain rfl : phase = .idle := hphase
  obtain rfl : phase' = .idle := hphase'
  obtain rfl : index = index' := h.tight.ext_find? h'.tight hfind
  obtain rfl : sent = sent' := hsent
  obtain rfl : dropped = dropped' := hdropped
  obtain rfl : openConnections = openConnections' :=
    h.openConnections_eq.trans h'.openConnections_eq.symm
  obtain rfl : channels = channels' := h.channels_eq.trans h'.channels_eq.symm
  rfl

end FlagFanout
