import FlagFanout.Proofs.Stream.Passing
import Mathlib.Logic.Relation

/-!
# Pushing to every member once

A push goes through the members of a channel by an index into them. A member whose receiver is gone
is taken out where it stands, and then the index stays where it is: the next member has moved there
(`Push.IsTurn`).

`Worker.Pushing` are the moments of a push. It takes many steps, and between two of them others may
use the mailboxes, as clients do (`Mailbox.Used`). A moment keeps which mailbox each offer so far
met. What the push did is read off these offers, whichever mailboxes were live, full or gone:

* `Worker.ServesOnce` is about a push that was completed: it made one offer to each member, in
  order, and the members that remain, the figures and the mailboxes are those which the offers give.
* `Worker.Progresses` is about every moment on the way: each offer leaves one member less to visit,
  and nothing but a full mailbox can keep the worker from the next one.

The invariant is `Push.IsVisited`: the members visited so far stand in the push as what remains of
them. `Worker.Begins.serves_once` is the theorem.
-/

namespace FlagFanout

open Relation (ReflTransGen)

/-! ## Offers -/

/-- A message is offered to a member of a channel: the mailbox that it met, if there ever was
one. -/
structure Offer where
  id : ConnectionId
  box : Option Mailbox

namespace Offer

/-- What becomes of the message. -/
def outcome (policy : DeliveryPolicy) (o : Offer) : Attempt :=
  o.box.elim .disconnected (·.attempt policy)

/-- The mailbox after the offer: the message is behind the others that wait in it, if it is sent. -/
def boxAfter (policy : DeliveryPolicy) (m : Message) (o : Offer) : Option Mailbox :=
  if o.outcome policy = .sent then o.box.map fun b => { b with messages := b.messages ++ [m] }
  else o.box

/-- Whom the offers leave as members. -/
def survivors (policy : DeliveryPolicy) (os : List Offer) : List ConnectionId :=
  (os.filter fun o => o.outcome policy ≠ .disconnected).map (·.id)

/-- How the offers turned out. -/
def tally (policy : DeliveryPolicy) (os : List Offer) : Tally where
  sent := os.countP fun o => o.outcome policy = .sent
  dropped := os.countP fun o => o.outcome policy = .dropped
  disconnected := os.countP fun o => o.outcome policy = .disconnected

/-- What the offers do outside the worker. -/
def trace (policy : DeliveryPolicy) (m : Message) (os : List Offer) : List Effect :=
  os.flatMap fun o => (o.outcome policy).trace o.id m

variable {policy : DeliveryPolicy} {m : Message}

@[simp] theorem outcome_some (id : ConnectionId) (box : Mailbox) :
    (Offer.mk id (some box)).outcome policy = box.attempt policy := rfl

theorem survivors_concat (os : List Offer) (o : Offer) :
    survivors policy (os ++ [o]) = if o.outcome policy = .disconnected then survivors policy os
      else survivors policy os ++ [o.id] := by
  unfold survivors
  by_cases h : o.outcome policy = .disconnected <;> simp [h]

theorem tally_concat (os : List Offer) (o : Offer) :
    tally policy (os ++ [o]) = tally policy os + (o.outcome policy).tally := by
  simp only [tally, List.countP_append, List.countP_singleton]
  cases o.outcome policy <;> rfl

theorem trace_concat (os : List Offer) (o : Offer) :
    trace policy m (os ++ [o]) = trace policy m os ++ (o.outcome policy).trace o.id m := by
  simp [trace]

/-- Every offer that is made turns out in one of three ways. -/
theorem tally_sum {os : List Offer} (h : ∀ o ∈ os, o.outcome policy ≠ .waiting) :
    (tally policy os).sent + (tally policy os).dropped + (tally policy os).disconnected =
      os.length := by
  induction os with
  | nil => rfl
  | cons o os ih =>
    obtain ⟨hserved, hrest⟩ := List.forall_mem_cons.1 h
    have hsum := ih hrest
    simp only [tally, List.countP_cons, List.length_cons] at hsum ⊢
    cases hout : o.outcome policy with
    | waiting => exact absurd hout hserved
    | sent | dropped | disconnected =>
      simp only [decide_true, decide_false, reduceCtorEq, if_true, Bool.false_eq_true, if_false]
      omega

/-! ### A mailbox from offer to offer -/

/-- What becomes of a mailbox: it takes some offers, one after the other, and others use it before
the first one, in between and after the last one. -/
def Leads (others : Option Mailbox → Option Mailbox → Prop) (policy : DeliveryPolicy)
    (m : Message) : Option Mailbox → List Offer → Option Mailbox → Prop
  | box, [], box' => ReflTransGen others box box'
  | box, o :: os, box' => ReflTransGen others box o.box ∧
      Leads others policy m (o.boxAfter policy m) os box'

variable {others : Option Mailbox → Option Mailbox → Prop} {box box' box'' : Option Mailbox}
  {os : List Offer}

theorem Leads.used (h : Leads others policy m box os box')
    (hothers : ReflTransGen others box' box'') : Leads others policy m box os box'' := by
  induction os generalizing box with
  | nil => exact h.trans hothers
  | cons o os ih => exact ⟨h.1, ih h.2⟩

theorem Leads.concat {o : Offer} (h : Leads others policy m box os o.box) :
    Leads others policy m box (os ++ [o]) (o.boxAfter policy m) := by
  induction os generalizing box with
  | nil => exact ⟨h, .refl⟩
  | cons o' os ih => exact ⟨h.1, ih h.2⟩

/-- An offer changes the mailbox that it meets and no other. -/
theorem get?_offer {boxes : Mailboxes} {o : Offer} (hbox : o.box = boxes.get? o.id.number)
    (m : Message) (n : Nat) :
    (boxes.offer policy o.id.number m).get? n =
      if o.id.number = n then o.boxAfter policy m else boxes.get? n := by
  obtain ⟨id, box⟩ := o
  obtain rfl : box = boxes.get? id.number := hbox
  rw [Mailboxes.offer, Mailboxes.get?_modify]
  by_cases hn : n = id.number
  · subst hn
    rw [if_pos rfl, if_pos rfl]
    cases hbox : boxes.get? id.number with
    | none => rfl
    | some box =>
      rw [boxAfter, outcome_some, Option.map_some, Option.map_some, Mailbox.offer]
      split <;> rfl
  · rw [if_neg hn, if_neg (Ne.symm hn)]

/-- A mailbox takes one offer, where no two offers are to one mailbox. -/
theorem filter_number_eq (hnodup : (os.map (·.id.number)).Nodup) {o : Offer} (ho : o ∈ os) :
    os.filter (·.id.number = o.id.number) = [o] := by
  obtain ⟨before, behind, rfl⟩ := List.append_of_mem ho
  rw [List.map_append, List.map_cons] at hnodup
  obtain ⟨-, hbehind, hapart⟩ := List.nodup_append.1 hnodup
  have hnone : before.filter (·.id.number = o.id.number) = [] :=
    List.filter_eq_nil_iff.2 fun o' ho' => by
      simpa using hapart _ (List.mem_map_of_mem ho') _ (List.mem_cons_self ..)
  have hnone' : behind.filter (·.id.number = o.id.number) = [] :=
    List.filter_eq_nil_iff.2 fun o' ho' heq =>
      (List.nodup_cons.1 hbehind).1 (List.mem_map.2 ⟨o', ho', by simpa using heq⟩)
  rw [List.filter_append, List.filter_cons_of_pos (by simp), hnone, hnone', List.nil_append]

end Offer

/-! ### What clients do -/

namespace Mailbox

/-- What clients do to a mailbox. -/
inductive Used : Option Mailbox → Option Mailbox → Prop
  /-- A connection is made. -/
  | create {capacity : Nat} (hroom : 0 < capacity) : Used none (some (.ofCapacity capacity))
  /-- A message is taken out. -/
  | take {box : Mailbox} {m : Message} {rest : List Message} (h : box.messages = m :: rest) :
    Used (some box) (some { box with messages := rest })
  /-- The receiver is dropped. -/
  | leave {box : Mailbox} : Used (some box) (some { box with listening := false, messages := [] })

/-- Nobody who uses a mailbox takes room away from an offer. -/
def Patient (policy : DeliveryPolicy) (others : Option Mailbox → Option Mailbox → Prop) : Prop :=
  ∀ o o' : Offer, others o.box o'.box → o.outcome policy ≠ .waiting → o'.outcome policy ≠ .waiting

theorem Patient.ne_waiting {policy : DeliveryPolicy}
    {others : Option Mailbox → Option Mailbox → Prop} (h : Patient policy others) {o : Offer}
    {box' : Option Mailbox} (hothers : ReflTransGen others o.box box')
    (hserved : o.outcome policy ≠ .waiting) (id : ConnectionId) :
    (Offer.mk id box').outcome policy ≠ .waiting := by
  induction hothers with
  | refl => exact hserved
  | tail _ hlast ih => exact h ⟨id, _⟩ ⟨id, _⟩ hlast ih

/-- Clients only make room. -/
theorem patient_used (policy : DeliveryPolicy) : Patient policy Used := by
  rintro ⟨id, box⟩ ⟨id', box'⟩ hused hserved hwaits
  cases hused with
  | create hroom =>
    rw [Offer.outcome_some, attempt_eq_waiting_iff] at hwaits
    have hfull := hwaits.2.1
    simp [Mailbox.ofCapacity, Mailbox.isFull] at hfull
    omega
  | @take box m rest h =>
    rw [Offer.outcome_some, attempt_eq_waiting_iff] at hwaits
    obtain ⟨hlistening, hfull, hblock⟩ := hwaits
    refine hserved (attempt_eq_waiting_iff.2 ⟨hlistening, ?_, hblock⟩)
    simp only [Mailbox.isFull, decide_eq_true_eq] at hfull ⊢
    rw [h, List.length_cons]
    omega
  | leave =>
    rw [Offer.outcome_some, attempt_eq_waiting_iff] at hwaits
    cases hwaits.1

end Mailbox

/-! ## One turn -/

namespace Push

/-- The members as they stand: who was served and stays, and who was not visited yet. -/
def members (push : Push) : List ConnectionId := push.served ++ push.waiting

/-- Which of the members is visited next. -/
def index (push : Push) : Nat := push.served.length

/-- How many members were not visited yet. -/
def remaining (push : Push) : Nat := push.members.length - push.index

/-- The push after an offer to the next member. -/
def after (policy : DeliveryPolicy) (o : Offer) (push : Push) : Push :=
  { push with
    served := if o.outcome policy = .disconnected then push.served else push.served ++ [o.id]
    waiting := push.waiting.tail
    tally := push.tally + (o.outcome policy).tally }

/-- One turn of the loop over the members: the offer is to the member at the index, which is taken
out of the list in its place if it is gone; else the index moves on. -/
structure IsTurn (policy : DeliveryPolicy) (o : Offer) (push push' : Push) : Prop where
  id_eq : push.members[push.index]? = some o.id
  members_eq : push'.members = if o.outcome policy = .disconnected
    then push.members.eraseIdx push.index else push.members
  index_eq : push'.index =
    if o.outcome policy = .disconnected then push.index else push.index + 1
  tally_eq : push'.tally = push.tally + (o.outcome policy).tally
  remaining_eq : push.remaining = push'.remaining + 1

variable {policy : DeliveryPolicy} {o : Offer} {push : Push}

theorem remaining_eq (push : Push) : push.remaining = push.waiting.length := by
  simp [remaining, members, index]

theorem isTurn_after {waiting : List ConnectionId} (h : push.waiting = o.id :: waiting) :
    push.IsTurn policy o (push.after policy o) where
  id_eq := by simp [members, index, h]
  members_eq := by
    by_cases hout : o.outcome policy = .disconnected <;>
      simp [members, index, after, h, hout, List.eraseIdx_append_of_length_le]
  index_eq := by
    by_cases hout : o.outcome policy = .disconnected <;> simp [index, after, hout]
  tally_eq := rfl
  remaining_eq := by simp [remaining_eq, after, h]

/-- The members visited so far stand in the push as what remains of them. -/
structure IsVisited (policy : DeliveryPolicy) (place : Place) (m : Message)
    (members : List ConnectionId) (os : List Offer) (push : Push) : Prop where
  place_eq : push.place = place
  message_eq : push.message = m
  served_eq : push.served = Offer.survivors policy os
  tally_eq : push.tally = Offer.tally policy os
  members_eq : os.map (·.id) ++ push.waiting = members

theorem IsVisited.after {place : Place} {m : Message} {members waiting : List ConnectionId}
    {os : List Offer} (h : push.IsVisited policy place m members os)
    (hwaiting : push.waiting = o.id :: waiting) :
    (push.after policy o).IsVisited policy place m members (os ++ [o]) where
  place_eq := h.place_eq
  message_eq := h.message_eq
  served_eq := by rw [Offer.survivors_concat, ← h.served_eq]; rfl
  tally_eq := by rw [Offer.tally_concat, ← h.tally_eq]; rfl
  members_eq := by rw [← h.members_eq, Push.after, hwaiting]; simp

end Push

namespace Worker

/-- The offer that the next step of a push makes; none if the worker has to wait first, and once
every member was visited. -/
def offer? (w : Worker) (policy : DeliveryPolicy) (boxes : Mailboxes) : Option Offer :=
  match w.phase with
  | .pushing _ push =>
    (push.waiting.head?.map fun id => Offer.mk id (boxes.get? id.number)).filter
      fun o => o.outcome policy ≠ .waiting
  | .stalled _ _ => none
  | .visiting _ => none
  | .idle => none
  | .stopped => none

/-- What a step of a push can be. -/
inductive PushCase (policy : DeliveryPolicy) (w : Worker) (boxes : Mailboxes) (pass : Pass)
    (push : Push) : Result → Prop
  /-- The next member is offered the message. -/
  | turn {o : Offer} {waiting : List ConnectionId} (hphase : w.phase = .pushing pass push)
    (hoffer : w.offer? policy boxes = some o) (hbox : o.box = boxes.get? o.id.number)
    (hwaiting : push.waiting = o.id :: waiting) (hserved : o.outcome policy ≠ .waiting) :
    PushCase policy w boxes pass push
      ⟨{ w with phase := .pushing pass (push.after policy o) },
        boxes.offer policy o.id.number push.message, (o.outcome policy).trace o.id push.message⟩
  /-- The worker waits. -/
  | stall (hphase : w.phase = .pushing pass push) (hoffer : w.offer? policy boxes = none)
    (hroom : canResume policy boxes push = false) :
    PushCase policy w boxes pass push ⟨{ w with phase := .stalled pass push }, boxes, []⟩
  /-- The worker need not wait any longer. -/
  | resume (hphase : w.phase = .stalled pass push) (hoffer : w.offer? policy boxes = none)
    (hroom : canResume policy boxes push = true) :
    PushCase policy w boxes pass push ⟨{ w with phase := .pushing pass push }, boxes, []⟩
  /-- Every member was visited. -/
  | finish (hoffer : w.offer? policy boxes = none) (hwaiting : push.waiting = []) :
    PushCase policy w boxes pass push ⟨(w.endPush pass push).1, boxes, (w.endPush pass push).2⟩

variable {policy : DeliveryPolicy} {w : Worker} {boxes : Mailboxes} {pass : Pass} {push : Push}
  {ev : Evaluator} {r : Result}

theorem pushCase_of_pushing (hphase : w.phase = .pushing pass push)
    (h : w.passStep? policy ev boxes = some r) : PushCase policy w boxes pass push r := by
  have hadvance : Advance policy (fun _ => ev) w boxes r := advance_of_pushing hphase h
  cases hadvance with
  | @serve pass' push' id waiting out hphase' hwaiting hattempt hout =>
    cases hphase.symm.trans hphase'
    subst hattempt
    have hafter : push.after policy ⟨id, boxes.get? id.number⟩ = { push with
        served := if boxes.attempt policy id.number = .disconnected then push.served
          else push.served ++ [id]
        waiting
        tally := push.tally + (boxes.attempt policy id.number).tally } := by
      simp only [Push.after, hwaiting, List.tail_cons]
      rfl
    rw [← hafter]
    refine .turn (o := ⟨id, boxes.get? id.number⟩) hphase ?_ rfl hwaiting hout
    simp only [offer?, hphase, hwaiting, List.head?_cons, Option.map_some]
    exact Option.filter_eq_some_iff.2 ⟨rfl, decide_eq_true hout⟩
  | @stall pass' push' id waiting hphase' hwaiting hout =>
    cases hphase.symm.trans hphase'
    refine .stall hphase ?_ ?_
    · simp only [offer?, hphase, hwaiting, List.head?_cons, Option.map_some]
      exact Option.filter_eq_none_iff.2 fun o ho => by
        cases ho
        exact fun h => of_decide_eq_true h hout
    · simp [canResume, hwaiting, hout]
  | @endPush pass' push' hphase' hwaiting =>
    cases hphase.symm.trans hphase'
    refine .finish ?_ hwaiting
    simp [offer?, hphase, hwaiting]
  -- the other steps of a pass are made in another phase
  | pass hphase' | produce hphase' | endPass hphase' | resume hphase' =>
    cases hphase.symm.trans hphase'

theorem pushCase_of_stalled (hphase : w.phase = .stalled pass push)
    (h : w.passStep? policy ev boxes = some r) : PushCase policy w boxes pass push r := by
  simp only [passStep?, hphase] at h
  split at h
  · next hroom =>
    cases h
    exact .resume hphase (by simp only [offer?, hphase]) hroom
  · cases h

theorem pushCase (hphase : w.phase = .pushing pass push ∨ w.phase = .stalled pass push)
    (h : w.passStep? policy ev boxes = some r) : PushCase policy w boxes pass push r :=
  hphase.elim (pushCase_of_pushing · h) (pushCase_of_stalled · h)

/-- **Only a full mailbox keeps the worker from the next step of a push**, where it has to wait for
room. -/
theorem waits_of_passStep?_eq_none
    (hphase : w.phase = .pushing pass push ∨ w.phase = .stalled pass push)
    (h : w.passStep? policy ev boxes = none) :
    policy = .block ∧ ∃ id waiting, push.waiting = id :: waiting ∧
      boxes.attempt policy id.number = .waiting := by
  rcases hphase with hphase | hphase
  · simp only [passStep?, hphase] at h
    split at h <;> cases h
  · simp only [passStep?, hphase] at h
    split at h
    · cases h
    · next hroom =>
      cases hwaiting : push.waiting with
      | nil => simp [canResume, hwaiting] at hroom
      | cons id waiting =>
        have hout : boxes.attempt policy id.number = .waiting := by
          simpa [canResume, hwaiting] using hroom
        exact ⟨boxes.eq_block_of_waiting hout, id, waiting, rfl, hout⟩

/-! ## The moments of a push -/

/-- A moment of a push: what was done so far, and how things stand. -/
structure Moment where
  steps : Nat
  offers : List Offer
  effects : List Effect
  worker : Worker
  mailboxes : Mailboxes

/-- The moment after a step of the worker. -/
def Moment.next (p : Moment) (policy : DeliveryPolicy) (r : Result) : Moment where
  steps := p.steps + 1
  offers := p.offers ++ (p.worker.offer? policy p.mailboxes).toList
  effects := p.effects ++ r.effects
  worker := r.worker
  mailboxes := r.mailboxes

theorem Moment.next_of_offer {p : Moment} {o : Offer}
    (h : p.worker.offer? policy p.mailboxes = some o) (r : Result) :
    p.next policy r =
      ⟨p.steps + 1, p.offers ++ [o], p.effects ++ r.effects, r.worker, r.mailboxes⟩ := by
  rw [next, h, Option.toList_some]

theorem Moment.next_of_no_offer {p : Moment}
    (h : p.worker.offer? policy p.mailboxes = none) (r : Result) :
    p.next policy r =
      ⟨p.steps + 1, p.offers, p.effects ++ r.effects, r.worker, r.mailboxes⟩ := by
  rw [next, h, Option.toList_none, List.append_nil]

/-- The worker makes a step. -/
def Moment.Step (policy : DeliveryPolicy) (p p' : Moment) : Prop :=
  ∃ ev r, p.worker.passStep? policy ev p.mailboxes = some r ∧ p' = p.next policy r

/-- The moments of a push that began with the given worker and mailboxes, as long as it goes on. In
between others use the mailboxes. -/
inductive Pushing (policy : DeliveryPolicy) (others : Option Mailbox → Option Mailbox → Prop)
    (w : Worker) (boxes : Mailboxes) : Moment → Prop
  | start : Pushing policy others w boxes ⟨0, [], [], w, boxes⟩
  | step {p p' : Moment} (hp : Pushing policy others w boxes p) (hstep : p.Step policy p')
    (hpush : p'.worker.phase.push?.isSome) : Pushing policy others w boxes p'
  | used {p : Moment} {mailboxes : Mailboxes} (hp : Pushing policy others w boxes p)
    (hothers : ∀ n, ReflTransGen others (p.mailboxes.get? n) (mailboxes.get? n)) :
    Pushing policy others w boxes { p with mailboxes }

/-- The moment at which a push was completed. -/
def Pushed (policy : DeliveryPolicy) (others : Option Mailbox → Option Mailbox → Prop)
    (w : Worker) (boxes : Mailboxes) (p' : Moment) : Prop :=
  ∃ p, Pushing policy others w boxes p ∧ p.Step policy p' ∧ p'.worker.phase.push? = none

/-- The worker begins to push a message to the members of a channel. -/
structure Begins (w : Worker) (pass : Pass) (place : Place) (c : Channel) (m : Message) :
    Prop where
  find?_eq : w.index.find? place.1 place.2 = some c
  phase_eq : w.phase = .pushing pass ⟨place, m, [], c.members, .zero⟩

/-- A visit to a channel where something moved begins a push. -/
theorem begins_visit {place : Place} {c : Channel} {last : Snapshot} {m : Message}
    (hfind : w.index.find? place.1 place.2 = some c)
    (hrefresh : c.last.refresh ev c.context = (last, some m)) (pass : Pass) :
    (w.visit ev pass place).Begins pass place { c with last } m := by
  simp only [visit, hfind, hrefresh]
  exact ⟨ChannelIndex.find?_put_self .., rfl⟩

/-! ### What holds at every moment -/

/-- How things stand at a moment of a push. -/
structure Stands (policy : DeliveryPolicy) (w : Worker) (pass : Pass) (place : Place)
    (c : Channel) (m : Message) (push : Push) (p : Moment) : Prop where
  isVisited : push.IsVisited policy place m c.members p.offers
  phase_eq : p.worker.phase = .pushing pass push ∨ p.worker.phase = .stalled pass push
  worker_eq : p.worker = { w with phase := p.worker.phase }
  served : ∀ o ∈ p.offers, o.outcome policy ≠ .waiting
  effects_eq : p.effects = Offer.trace policy m p.offers

section Runs

variable {others : Option Mailbox → Option Mailbox → Prop} {place : Place} {c : Channel}
  {m : Message} {p p' : Moment}

theorem Begins.stands (h : w.Begins pass place c m) (boxes : Mailboxes) :
    Stands policy w pass place c m ⟨place, m, [], c.members, .zero⟩ ⟨0, [], [], w, boxes⟩ where
  isVisited := ⟨rfl, rfl, rfl, rfl, rfl⟩
  phase_eq := .inl h.phase_eq
  worker_eq := rfl
  served := List.forall_mem_nil _
  effects_eq := rfl

theorem Stands.push?_eq (h : Stands policy w pass place c m push p) :
    p.worker.phase.push? = some push := by
  rcases h.phase_eq with hphase | hphase <;> rw [hphase] <;> rfl

/-- The worker begins to wait, or no longer has to. -/
theorem Stands.pause (h : Stands policy w pass place c m push p) {phase : Phase}
    (hoffer : p.worker.offer? policy p.mailboxes = none)
    (hphase : phase = .pushing pass push ∨ phase = .stalled pass push) :
    Stands policy w pass place c m push
      (p.next policy ⟨{ p.worker with phase }, p.mailboxes, []⟩) := by
  rw [Moment.next_of_no_offer hoffer, List.append_nil]
  exact ⟨h.isVisited, hphase, by rw [h.worker_eq], h.served, h.effects_eq⟩

/-- **A step of a push goes on with the members that are left**, as long as there are any. -/
theorem Stands.step (h : Stands policy w pass place c m push p) (hstep : p.Step policy p')
    (hpush : p'.worker.phase.push?.isSome) :
    ∃ push', Stands policy w pass place c m push' p' := by
  obtain ⟨ev, r, hr, rfl⟩ := hstep
  have hcase := pushCase h.phase_eq hr
  cases hcase with
  | @turn o waiting hphase hoffer hbox hwaiting hserved =>
    refine ⟨push.after policy o, ?_⟩
    rw [Moment.next_of_offer hoffer]
    exact
      { isVisited := h.isVisited.after hwaiting
        phase_eq := .inl rfl
        worker_eq := by rw [h.worker_eq]
        served := List.forall_mem_append.2 ⟨h.served, List.forall_mem_singleton.2 hserved⟩
        effects_eq := by rw [Offer.trace_concat, h.effects_eq, h.isVisited.message_eq] }
  | stall hphase hoffer => exact ⟨push, h.pause hoffer (.inr rfl)⟩
  | resume hphase hoffer => exact ⟨push, h.pause hoffer (.inl rfl)⟩
  | finish => cases hpush

theorem Pushing.stands (hp : Pushing policy others w boxes p) (h : w.Begins pass place c m) :
    ∃ push, Stands policy w pass place c m push p := by
  induction hp with
  | start => exact ⟨_, h.stands boxes⟩
  | step hp hstep hpush ih =>
    obtain ⟨push, hstands⟩ := ih
    exact hstands.step hstep hpush
  | used hp hothers ih =>
    obtain ⟨push, hstands⟩ := ih
    exact ⟨push, hstands.isVisited, hstands.phase_eq, hstands.worker_eq, hstands.served,
      hstands.effects_eq⟩

/-! ### Mailboxes -/

/-- A step makes an offer to at most one mailbox and leaves the others alone. -/
theorem Stands.leads_step (h : Stands policy w pass place c m push p) (hstep : p.Step policy p')
    {box : Option Mailbox} {n : Nat}
    (hleads : Offer.Leads others policy m box (p.offers.filter (·.id.number = n))
      (p.mailboxes.get? n)) :
    Offer.Leads others policy m box (p'.offers.filter (·.id.number = n))
      (p'.mailboxes.get? n) := by
  obtain ⟨ev, r, hr, rfl⟩ := hstep
  have hcase := pushCase h.phase_eq hr
  cases hcase with
  | @turn o waiting hphase hoffer hbox hwaiting hserved =>
    rw [Moment.next_of_offer hoffer, List.filter_append, h.isVisited.message_eq,
      Offer.get?_offer hbox]
    by_cases hn : o.id.number = n
    · subst hn
      rw [if_pos rfl, List.filter_cons_of_pos (by simp), List.filter_nil]
      -- the offer met the mailbox as the earlier ones and the others had left it
      rw [← hbox] at hleads
      exact hleads.concat
    · rw [if_neg hn, List.filter_cons_of_neg (by simpa using hn), List.filter_nil,
        List.append_nil]
      exact hleads
  | stall hphase hoffer | resume hphase hoffer | finish hoffer =>
    rw [Moment.next_of_no_offer hoffer]
    exact hleads

/-- **A mailbox takes the offers to its connection**, and nothing else of the push. -/
theorem Pushing.leads (hp : Pushing policy others w boxes p) (h : w.Begins pass place c m)
    (n : Nat) :
    Offer.Leads others policy m (boxes.get? n) (p.offers.filter (·.id.number = n))
      (p.mailboxes.get? n) := by
  induction hp with
  | start => exact .refl
  | step hp hstep hpush ih =>
    obtain ⟨push, hstands⟩ := hp.stands h
    exact hstands.leads_step hstep ih
  | used hp hothers ih => exact ih.used (hothers n)

/-! ### How long it takes -/

/-- How many steps a push takes yet at most, where nobody takes room away: three for a member, to
begin to wait, to be done with waiting and to make the offer. -/
def Moment.distance (p : Moment) (policy : DeliveryPolicy) : Nat :=
  match p.worker.phase with
  | .pushing _ push =>
    3 * push.waiting.length + if canResume policy p.mailboxes push then 0 else 2
  | .stalled _ push => 3 * push.waiting.length + 1
  | .visiting _ => 0
  | .idle => 0
  | .stopped => 0

theorem Stands.distance_le (h : Stands policy w pass place c m push p) :
    p.distance policy ≤ 3 * push.waiting.length + 2 := by
  rcases h.phase_eq with hphase | hphase
  · simp only [Moment.distance, hphase]
    split <;> omega
  · simp only [Moment.distance, hphase]
    omega

/-- **Every step brings a push nearer to its end.** -/
theorem Stands.distance_step (h : Stands policy w pass place c m push p)
    (hstep : p.Step policy p') (hpush : p'.worker.phase.push?.isSome) :
    p'.distance policy < p.distance policy := by
  obtain ⟨ev, r, hr, rfl⟩ := hstep
  have hcase := pushCase h.phase_eq hr
  cases hcase with
  | turn hphase hoffer hbox hwaiting =>
    simp only [Moment.next, Moment.distance, hphase, Push.after, hwaiting, List.tail_cons,
      List.length_cons]
    split <;> split <;> omega
  | stall hphase hoffer hroom => simp [Moment.next, Moment.distance, hphase, hroom]
  | resume hphase hoffer hroom => simp [Moment.next, Moment.distance, hphase, hroom]
  | finish => cases hpush

theorem canResume_of_used (hpatient : Mailbox.Patient policy others) {boxes' : Mailboxes}
    (hothers : ∀ n, ReflTransGen others (boxes.get? n) (boxes'.get? n))
    (hroom : canResume policy boxes push = true) : canResume policy boxes' push = true := by
  cases hwaiting : push.waiting with
  | nil => simp [canResume, hwaiting]
  | cons id waiting =>
    simp only [canResume, hwaiting, List.head?_cons, Option.all_some, decide_eq_true_eq]
      at hroom ⊢
    exact hpatient.ne_waiting (o := ⟨id, boxes.get? id.number⟩) (hothers id.number) hroom id

theorem Moment.distance_used_le (hpatient : Mailbox.Patient policy others) {mailboxes : Mailboxes}
    (hothers : ∀ n, ReflTransGen others (p.mailboxes.get? n) (mailboxes.get? n)) :
    { p with mailboxes }.distance policy ≤ p.distance policy := by
  unfold distance
  cases p.worker.phase with
  | pushing pass push =>
    by_cases hroom : canResume policy p.mailboxes push
    · simp [hroom, canResume_of_used hpatient hothers hroom]
    · simp only [hroom, if_false, Bool.false_eq_true]
      split <;> omega
  | stalled | visiting | idle | stopped => exact Nat.le_refl _

/-- **A push takes three steps for a member at most**, where nobody takes room away. -/
theorem Pushing.steps_le (hp : Pushing policy others w boxes p) (h : w.Begins pass place c m)
    (hpatient : Mailbox.Patient policy others) :
    p.steps + p.distance policy ≤ 3 * c.members.length + 2 := by
  induction hp with
  | start => exact Nat.le_trans (Nat.le_of_eq (Nat.zero_add _)) (h.stands boxes).distance_le
  | @step p p' hp hstep hpush ih =>
    obtain ⟨push, hstands⟩ := hp.stands h
    have hnearer := hstands.distance_step hstep hpush
    obtain ⟨ev, r, -, rfl⟩ := hstep
    have hsteps : (p.next policy r).steps = p.steps + 1 := rfl
    omega
  | used hp hothers ih =>
    exact Nat.le_trans (Nat.add_le_add_left (Moment.distance_used_le hpatient hothers) _) ih

/-- **Left alone, a push comes to its end**, or to a mailbox for which the worker waits. -/
theorem Pushing.settles (hp : Pushing policy others w boxes p) (h : w.Begins pass place c m) :
    ∃ p', ReflTransGen (Moment.Step policy) p p' ∧
      (Pushed policy others w boxes p' ∨
        Pushing policy others w boxes p' ∧ ∀ p'', ¬ p'.Step policy p'') := by
  -- by induction on the distance, which only steps of the worker are sure to shorten
  induction hn : p.distance policy using Nat.strongRecOn generalizing p with
  | ind n ih =>
    by_cases hnext : ∃ p', p.Step policy p'
    · obtain ⟨p', hstep⟩ := hnext
      cases hpush : p'.worker.phase.push? with
      | none => exact ⟨p', .single hstep, .inl ⟨p, hp, hstep, hpush⟩⟩
      | some push =>
        have hsome : p'.worker.phase.push?.isSome := by rw [hpush]; rfl
        obtain ⟨_, hstands⟩ := hp.stands h
        have hnearer := hstands.distance_step hstep hsome
        obtain ⟨p'', hsteps, hend⟩ := ih _ (hn ▸ hnearer) (hp.step hstep hsome) rfl
        exact ⟨p'', .head hstep hsteps, hend⟩
    · exact ⟨p, .refl, .inr ⟨hp, not_exists.1 hnext⟩⟩

/-! ### A completed push, and a push on its way -/

/-- What a push did to a channel that was completed, after the offers that it made. -/
structure ServesOnce (policy : DeliveryPolicy)
    (others : Option Mailbox → Option Mailbox → Prop) (w : Worker) (boxes : Mailboxes)
    (pass : Pass) (place : Place) (c : Channel) (m : Message) (p : Moment) : Prop where
  /-- One offer was made to each member, in order. -/
  offers_eq : p.offers.map (·.id) = c.members
  /-- Each of them was sent the message, had no room for it or was gone. -/
  served : ∀ o ∈ p.offers, o.outcome policy ≠ .waiting
  /-- The members that remain are those who were not gone, and nothing else changed in the index. -/
  worker_eq : p.worker =
    { w with
      index := w.index.put place.1 place.2 { c with members := Offer.survivors policy p.offers }
      phase := .visiting (passAfter pass
        ⟨place, m, Offer.survivors policy p.offers, [], Offer.tally policy p.offers⟩) }
  /-- The figures add up to the members there were. -/
  tally_sum : (Offer.tally policy p.offers).sent + (Offer.tally policy p.offers).dropped +
    (Offer.tally policy p.offers).disconnected = c.members.length
  /-- Outside the worker nothing was done but by the offers, and the reports about them. -/
  effects_eq : p.effects =
    Offer.trace policy m p.offers ++ report place.1 (Offer.tally policy p.offers)
  /-- A mailbox took the offers to its connection. -/
  leads : ∀ n, Offer.Leads others policy m (boxes.get? n)
    (p.offers.filter (·.id.number = n)) (p.mailboxes.get? n)
  /-- That is one offer, where no two members share a mailbox. -/
  leads_once : (c.members.map (·.number)).Nodup → ∀ o ∈ p.offers,
    ReflTransGen others (boxes.get? o.id.number) o.box ∧
      ReflTransGen others (o.boxAfter policy m) (p.mailboxes.get? o.id.number)

/-- How a push gets on. -/
structure Progresses (policy : DeliveryPolicy)
    (others : Option Mailbox → Option Mailbox → Prop) (w : Worker) (boxes : Mailboxes)
    (members : List ConnectionId) (push : Push) (p : Moment) : Prop where
  push?_eq : p.worker.phase.push? = some push
  /-- The members who were made an offer come before those who were not visited yet. -/
  members_eq : p.offers.map (·.id) ++ push.waiting = members
  /-- A step that makes an offer is one turn of the loop, after which one member less is to be
  visited. Another step leaves the push as it is, or ends it once every member was visited. -/
  turn : ∀ p', p.Step policy p' →
    (∃ o push', p'.offers = p.offers ++ [o] ∧ p'.worker.phase.push? = some push' ∧
      push.IsTurn policy o push') ∨
    p'.offers = p.offers ∧ (p'.worker.phase.push? = some push ∨
      p'.worker.phase.push? = none ∧ push.remaining = 0)
  /-- There is a next step, unless the worker blocks on a full mailbox. -/
  waits : (∀ p', ¬ p.Step policy p') → policy = .block ∧
    ∃ id waiting, push.waiting = id :: waiting ∧
      p.mailboxes.attempt policy id.number = .waiting
  /-- Where nobody takes room away, there are not many steps. -/
  steps_le : Mailbox.Patient policy others → p.steps ≤ 3 * members.length + 2
  /-- If only the worker goes on, the push comes to its end or to such a mailbox. -/
  settles : ∃ p', ReflTransGen (Moment.Step policy) p p' ∧
    (Pushed policy others w boxes p' ∨
      Pushing policy others w boxes p' ∧ ∀ p'', ¬ p'.Step policy p'')

/-- The end of a push: who was visited and stays is a member. -/
theorem Stands.endPush_eq (h : Stands policy w pass place c m push p)
    (hbegins : w.Begins pass place c m) (hwaiting : push.waiting = []) :
    p.worker.endPush pass push =
      ({ w with
          index := w.index.put place.1 place.2 { c with members := Offer.survivors policy p.offers }
          phase := .visiting (passAfter pass
            ⟨place, m, Offer.survivors policy p.offers, [], Offer.tally policy p.offers⟩) },
        report place.1 (Offer.tally policy p.offers)) := by
  obtain ⟨⟨hplace, hmessage, hserved, htally, -⟩, -, hworker, -, -⟩ := h
  have hindex : p.worker.index = w.index := by rw [hworker]
  have hcounters : p.worker.counters = w.counters := by rw [hworker]
  have hfind : p.worker.index.find? push.place.1 push.place.2 = some c := by
    rw [hindex, hplace, hbegins.find?_eq]
  have hpush : push =
      ⟨place, m, Offer.survivors policy p.offers, [], Offer.tally policy p.offers⟩ := by
    rw [← hplace, ← hmessage, ← hserved, ← htally, ← hwaiting]
  refine Prod.ext ?_ ?_
  · rw [endPush_of_find? hfind, hindex, hcounters, hpush]
  · rw [endPush_snd, hplace, htally]

theorem Pushed.servesOnce (hp : Pushed policy others w boxes p')
    (h : w.Begins pass place c m) : ServesOnce policy others w boxes pass place c m p' := by
  obtain ⟨p, hpushing, hstep, hpush⟩ := hp
  obtain ⟨push, hstands⟩ := hpushing.stands h
  have hleads := fun n => hstands.leads_step hstep (hpushing.leads h n)
  obtain ⟨ev, r, hr, rfl⟩ := hstep
  have hcase := pushCase hstands.phase_eq hr
  cases hcase with
  | turn | stall | resume => cases hpush
  | finish hoffer hwaiting =>
    have hmembers : p.offers.map (·.id) = c.members := by
      rw [← hstands.isVisited.members_eq, hwaiting, List.append_nil]
    have hlength : p.offers.length = c.members.length := by rw [← hmembers, List.length_map]
    rw [Moment.next_of_no_offer hoffer, hstands.endPush_eq h hwaiting,
      hstands.effects_eq] at hleads ⊢
    refine
      { offers_eq := hmembers
        served := hstands.served
        worker_eq := rfl
        tally_sum := (Offer.tally_sum hstands.served).trans hlength
        effects_eq := rfl
        leads := hleads
        leads_once := fun hnodup o ho => ?_ }
    rw [← hmembers, List.map_map] at hnodup
    have hone := hleads o.id.number
    rw [Offer.filter_number_eq hnodup ho] at hone
    exact hone

/-- Where nobody else uses the mailboxes, each member's is as it was, but for the message that it
gained if that was sent. -/
theorem ServesOnce.get?_mailboxes
    (h : ServesOnce policy (fun _ _ => False) w boxes pass place c m p)
    (hnodup : (c.members.map (·.number)).Nodup) {o : Offer} (ho : o ∈ p.offers) :
    boxes.get? o.id.number = o.box ∧ p.mailboxes.get? o.id.number = o.boxAfter policy m := by
  obtain ⟨hbefore, hafter⟩ := h.leads_once hnodup o ho
  exact ⟨((Relation.reflTransGen_iff_eq fun _ h => h).1 hbefore).symm,
    (Relation.reflTransGen_iff_eq fun _ h => h).1 hafter⟩

theorem Stands.turn (h : Stands policy w pass place c m push p) (hstep : p.Step policy p') :
    (∃ o push', p'.offers = p.offers ++ [o] ∧ p'.worker.phase.push? = some push' ∧
      push.IsTurn policy o push') ∨
    p'.offers = p.offers ∧ (p'.worker.phase.push? = some push ∨
      p'.worker.phase.push? = none ∧ push.remaining = 0) := by
  obtain ⟨ev, r, hr, rfl⟩ := hstep
  have hcase := pushCase h.phase_eq hr
  cases hcase with
  | turn hphase hoffer hbox hwaiting =>
    refine .inl ⟨_, _, ?_, rfl, Push.isTurn_after hwaiting⟩
    rw [Moment.next_of_offer hoffer]
  | stall hphase hoffer | resume hphase hoffer =>
    refine .inr ⟨?_, .inl rfl⟩
    rw [Moment.next_of_no_offer hoffer]
  | finish hoffer hwaiting =>
    refine .inr ⟨?_, .inr ⟨rfl, ?_⟩⟩
    · rw [Moment.next_of_no_offer hoffer]
    · rw [Push.remaining_eq, hwaiting, List.length_nil]

theorem Stands.waits (h : Stands policy w pass place c m push p)
    (hnone : ∀ p', ¬ p.Step policy p') : policy = .block ∧
      ∃ id waiting, push.waiting = id :: waiting ∧
        p.mailboxes.attempt policy id.number = .waiting := by
  -- nothing is evaluated in the middle of a push: whatever the engine served would do
  let ev : Evaluator := ⟨fun _ _ => .error .notReady, fun _ => .empty⟩
  have hstep : p.worker.passStep? policy ev p.mailboxes = none :=
    Option.eq_none_iff_forall_ne_some.2 fun r hr => hnone _ ⟨ev, r, hr, rfl⟩
  exact waits_of_passStep?_eq_none h.phase_eq hstep

theorem Pushing.progresses (hp : Pushing policy others w boxes p) (h : w.Begins pass place c m) :
    ∃ push, Progresses policy others w boxes c.members push p := by
  obtain ⟨push, hstands⟩ := hp.stands h
  refine ⟨push, ?_⟩
  exact
    { push?_eq := hstands.push?_eq
      members_eq := hstands.isVisited.members_eq
      turn := fun p' => hstands.turn
      waits := hstands.waits
      steps_le := fun hpatient => Nat.le_trans (Nat.le_add_right ..) (hp.steps_le h hpatient)
      settles := hp.settles h }

/-- **A push serves every member exactly once**, and it comes to its end. -/
theorem Begins.serves_once (h : w.Begins pass place c m) (policy : DeliveryPolicy)
    (others : Option Mailbox → Option Mailbox → Prop) (boxes : Mailboxes) :
    (∀ p, Pushed policy others w boxes p → ServesOnce policy others w boxes pass place c m p) ∧
    ∀ p, Pushing policy others w boxes p →
      ∃ push, Progresses policy others w boxes c.members push p :=
  ⟨fun _ hp => hp.servesOnce h, fun _ hp => hp.progresses h⟩

end Runs

/-- A push to four members, of whom the first two are gone and the others have no room. One of those
makes some before it is its turn. -/
theorem serves_once_of_neighbours_gone :
    ∃ (w : Worker) (boxes : Mailboxes) (pass : Pass) (place : Place) (c : Channel) (m : Message)
      (p : Moment), w.Begins pass place c m ∧ Pushed .dropNewest Mailbox.Used w boxes p ∧
      p.offers.map (·.outcome .dropNewest) = [.disconnected, .disconnected, .dropped, .sent] ∧
      Offer.survivors .dropNewest p.offers = [⟨0, 2⟩, ⟨0, 3⟩] ∧
      ServesOnce .dropNewest Mailbox.Used w boxes pass place c m p ∧
      ∀ p', Pushing .dropNewest Mailbox.Used w boxes p' → p'.steps ≤ 14 := by
  let ev : Evaluator := ⟨fun _ _ => .ok ⟨.bool true, "on"⟩, fun _ => .empty⟩
  let c : Channel := ⟨.flag "f" .unavailable, none, [⟨0, 0⟩, ⟨0, 1⟩, ⟨0, 2⟩, ⟨0, 3⟩]⟩
  let m : Message := .flag (.ofEvaluation ⟨.bool true, "on"⟩)
  let place : Place := (.flag "f", 0)
  let pass : Pass := ⟨[], .zero, []⟩
  let w₀ : Worker := { Worker.idle with index := ChannelIndex.empty.put place.1 place.2 c }
  let w : Worker := w₀.visit ev pass place
  have hbegins : w.Begins pass place { c with last := .flag "f" (.ofEvaluation _) } m :=
    begins_visit (c := c) (by rfl) rfl pass
  let boxes : Mailboxes := ⟨[⟨1, [], false⟩, ⟨1, [], false⟩, ⟨1, [m], true⟩, ⟨1, [m], true⟩]⟩
  let boxes' : Mailboxes := ⟨[⟨1, [], false⟩, ⟨1, [], false⟩, ⟨1, [m], true⟩, ⟨1, [], true⟩]⟩
  have htaken : ∀ n, ReflTransGen Mailbox.Used (boxes.get? n) (boxes'.get? n) := by
    intro n
    match n with
    | 0 | 1 | 2 | _ + 4 => exact .refl
    | 3 => exact .single (.take rfl)
  have hfirst : Pushing .dropNewest Mailbox.Used w boxes _ :=
    .step .start ⟨ev, _, rfl, rfl⟩ rfl
  have hmeanwhile : Pushing .dropNewest Mailbox.Used w boxes ⟨_, _, _, _, boxes'⟩ :=
    .used hfirst htaken
  have hpushing : Pushing .dropNewest Mailbox.Used w boxes _ :=
    .step (.step (.step hmeanwhile ⟨ev, _, rfl, rfl⟩ rfl) ⟨ev, _, rfl, rfl⟩ rfl)
      ⟨ev, _, rfl, rfl⟩ rfl
  have hpushed : Pushed .dropNewest Mailbox.Used w boxes _ :=
    ⟨_, hpushing, ⟨ev, _, rfl, rfl⟩, rfl⟩
  obtain ⟨hserves, hprogresses⟩ := hbegins.serves_once .dropNewest Mailbox.Used boxes
  refine ⟨w, boxes, pass, place, _, m, _, hbegins, hpushed, by rfl, by rfl, hserves _ hpushed, ?_⟩
  intro p' hp'
  obtain ⟨push, hprogress⟩ := hprogresses p' hp'
  exact hprogress.steps_le (Mailbox.patient_used .dropNewest)

end Worker

end FlagFanout
