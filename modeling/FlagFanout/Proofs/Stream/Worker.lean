import FlagFanout.Proofs.Stream.Index
import FlagFanout.Proofs.Stream.Mailbox

/-!
# Laws of the worker's operations

What the operations of a worker leave of its index, its counters and its phase. Only three of them
have more than one outcome: visiting a channel (`visit_cases`), ending the push to one
(`endPush_of_find?`) and ending a pass, which prunes the members found gone
(`isPruned_endPass`).
-/

namespace FlagFanout

/-! ## Phases -/

namespace Phase

/-- The pass that the worker is in the middle of. -/
def pass? : Phase → Option Pass
  | visiting pass => some pass
  | pushing pass _ => some pass
  | stalled pass _ => some pass
  | idle => none
  | stopped => none

/-- The push that the worker is in the middle of. -/
def push? : Phase → Option Push
  | pushing _ push => some push
  | stalled _ push => some push
  | visiting _ => none
  | idle => none
  | stopped => none

/-- Where the pass has still to go. -/
def todo (p : Phase) : List Place := p.pass?.elim [] (·.todo)

/-- Where the pass found members gone so far, and how many. -/
def pruned (p : Phase) : List (Place × Nat) := p.pass?.elim [] (·.pruned)

end Phase

namespace Worker

/-! ## Pruning -/

/-- How many members of channels whose selector passes a test were found gone. -/
def goneIn (p : Selector → Bool) (pruned : List (Place × Nat)) : Nat :=
  (pruned.map fun e => if p e.1.1 then e.2 else 0).sum

@[simp] theorem goneIn_nil (p : Selector → Bool) : goneIn p [] = 0 := rfl

@[simp] theorem goneIn_append (p : Selector → Bool) (l l' : List (Place × Nat)) :
    goneIn p (l ++ l') = goneIn p l + goneIn p l' := by
  simp [goneIn]

@[simp] theorem goneIn_cons (p : Selector → Bool) (e : Place × Nat) (l : List (Place × Nat)) :
    goneIn p (e :: l) = (if p e.1.1 then e.2 else 0) + goneIn p l := by
  simp [goneIn]

/-- The index without the empty channels at some places. -/
def collected (i : ChannelIndex) (pruned : List (Place × Nat)) : ChannelIndex :=
  pruned.foldl (fun i e => i.collect e.1.1 e.1.2) i

theorem keeps_collected (i : ChannelIndex) (pruned : List (Place × Nat)) :
    i.Keeps (collected i pruned) := by
  induction pruned generalizing i with
  | nil => exact .refl i
  | cons e rest ih => exact (ChannelIndex.keeps_collect i e.1).trans (ih _)

/-- The reports about members found gone. -/
def closings (pruned : List (Place × Nat)) : List Effect :=
  pruned.flatMap fun e => List.replicate e.2 (.metric (.closed e.1.1))

theorem repeat_retire (w : Worker) (n : Nat) :
    Nat.repeat retire n w =
      { w with counters := { w.counters with
        openConnections := w.counters.openConnections - n } } := by
  induction n with
  | zero => rfl
  | succ n ih => rw [Nat.repeat, ih]; rfl

theorem prune_fst (w : Worker) (place : Place) (n : Nat) :
    (w.prune place n).1 =
      { w.collect place with counters := { (w.collect place).counters with
        openConnections := w.counters.openConnections - n } } := by
  rw [prune, repeat_retire]
  rfl

/-- The worker's state once the members found gone at all places are accounted for. -/
structure IsPruned (w : Worker) (pruned : List (Place × Nat)) (w' : Worker) : Prop where
  index_eq : w'.index = collected w.index pruned
  phase_eq : w'.phase = w.phase
  openConnections_eq :
    w'.counters.openConnections = w.counters.openConnections - goneIn (fun _ => true) pruned
  channels_eq : w.counters.channels = w.index.count → w'.counters.channels = w'.index.count
  sent_eq : w'.counters.sent = w.counters.sent
  dropped_eq : w'.counters.dropped = w.counters.dropped

theorem isPruned_pruneAll (w : Worker) (pruned : List (Place × Nat)) :
    w.IsPruned pruned (w.pruneAll pruned).1 := by
  induction pruned generalizing w with
  | nil => exact ⟨rfl, rfl, rfl, id, rfl, rfl⟩
  | cons e rest ih =>
    obtain ⟨place, n⟩ := e
    have h := ih (w.prune place n).1
    have hcons : (w.pruneAll ((place, n) :: rest)).1 = ((w.prune place n).1.pruneAll rest).1 := rfl
    rw [← hcons, prune_fst] at h
    exact
      { index_eq := h.index_eq
        phase_eq := h.phase_eq
        openConnections_eq := by rw [h.openConnections_eq, goneIn_cons, if_pos rfl, Nat.sub_sub]
        channels_eq := fun _ => h.channels_eq rfl
        sent_eq := h.sent_eq
        dropped_eq := h.dropped_eq }

theorem pruneAll_snd (w : Worker) (pruned : List (Place × Nat)) :
    (w.pruneAll pruned).2 = closings pruned := by
  induction pruned generalizing w with
  | nil => rfl
  | cons e rest ih =>
    obtain ⟨place, n⟩ := e
    have hcons : (w.pruneAll ((place, n) :: rest)).2 =
        List.replicate n (.metric (.closed place.1)) ++ ((w.prune place n).1.pruneAll rest).2 := rfl
    rw [hcons, ih, closings, closings, List.flatMap_cons]

theorem endPass_snd (w : Worker) (pass : Pass) : (w.endPass pass).2 = closings pass.pruned :=
  pruneAll_snd ..

theorem isPruned_endPass (w : Worker) (pass : Pass) :
    ({ w with phase := .idle }.count pass.total).IsPruned pass.pruned (w.endPass pass).1 :=
  isPruned_pruneAll ..

@[simp] theorem endPass_phase (w : Worker) (pass : Pass) : (w.endPass pass).1.phase = .idle :=
  (isPruned_endPass w pass).phase_eq

theorem endPass_index (w : Worker) (pass : Pass) :
    (w.endPass pass).1.index = collected w.index pass.pruned :=
  (isPruned_endPass w pass).index_eq

/-! ## Channels made for newcomers -/

section ChannelFor

variable {w : Worker} {ev : Evaluator} {selector : Selector} {discriminator : UInt64}
  {context : Option Context}

theorem channelFor_of_find? {c : Channel} (h : w.index.find? selector discriminator = some c) :
    w.channelFor ev selector discriminator context = c := by
  rw [channelFor, h, Option.getD_some]

theorem channelFor_of_find?_eq_none (h : w.index.find? selector discriminator = none) :
    w.channelFor ev selector discriminator context = .fresh ev selector context := by
  rw [channelFor, h, Option.getD_none]

end ChannelFor

/-- A channel made for a newcomer that does not join is given up again. -/
theorem keeps_collect_channelFor (w : Worker) (ev : Evaluator) (place : Place)
    (context : Option Context) :
    w.index.Keeps
      ((w.index.put place.1 place.2 (w.channelFor ev place.1 place.2 context)).collect
        place.1 place.2) := by
  cases hfind : w.index.find? place.1 place.2 with
  | some c =>
    rw [channelFor_of_find? hfind]
    exact (ChannelIndex.keeps_put place hfind rfl rfl).trans (ChannelIndex.keeps_collect _ place)
  | none =>
    rw [channelFor_of_find?_eq_none hfind]
    intro place' c' hc'
    rw [ChannelIndex.find?_collect, ChannelIndex.find?_put, ChannelIndex.find?_put] at hc'
    by_cases heq : place' = place
    · simp [heq, Channel.isEmpty, Channel.fresh] at hc'
    · rw [if_neg fun hc => heq hc.1, if_neg heq] at hc'
      exact ⟨c', hc', rfl, rfl⟩

/-! ## Visiting -/

/-- A visit goes on to the next channel, or begins to push what moved. -/
theorem visit_cases (w : Worker) (ev : Evaluator) (pass : Pass) (place : Place) :
    (w.visit ev pass place = { w with phase := .visiting pass } ∧
      ∀ c, w.index.find? place.1 place.2 = some c → (c.last.refresh ev c.context).2 = none) ∨
    ∃ c last m, w.index.find? place.1 place.2 = some c ∧
      c.last.refresh ev c.context = (last, some m) ∧
      w.visit ev pass place =
        { w with
          index := w.index.put place.1 place.2 { c with last }
          phase := .pushing pass ⟨place, m, [], c.members, .zero⟩ } := by
  cases hfind : w.index.find? place.1 place.2 with
  | none => exact .inl ⟨by simp [Worker.visit, hfind], fun c hc => nomatch hc⟩
  | some c =>
    cases hrefresh : c.last.refresh ev c.context with | mk last found
    cases found with
    | none =>
      refine .inl ⟨by simp [Worker.visit, hfind, hrefresh], fun c' hc' => ?_⟩
      cases hc'
      rw [hrefresh]
    | some m => exact .inr ⟨c, last, m, rfl, hrefresh, by simp [Worker.visit, hfind, hrefresh]⟩

/-! ## Ending a push -/

/-- The pass after the push to a channel ended. -/
def passAfter (pass : Pass) (push : Push) : Pass :=
  { pass with
    total := pass.total + push.tally
    pruned := pass.pruned ++
      if 0 < push.tally.disconnected then [(push.place, push.tally.disconnected)] else [] }

theorem endPush_of_find? {w : Worker} {pass : Pass} {push : Push} {c : Channel}
    (h : w.index.find? push.place.1 push.place.2 = some c) :
    (w.endPush pass push).1 =
      { w with
        index := w.index.put push.place.1 push.place.2 { c with members := push.served }
        phase := .visiting (passAfter pass push) } := by
  simp only [endPush, h]
  rfl

theorem endPush_of_find?_eq_none {w : Worker} {pass : Pass} {push : Push}
    (h : w.index.find? push.place.1 push.place.2 = none) :
    (w.endPush pass push).1 = { w with phase := .visiting (passAfter pass push) } := by
  simp only [endPush, h]
  rfl

theorem find?_endPush_of_ne {w : Worker} (pass : Pass) (push : Push) {place : Place}
    (hne : place ≠ push.place) :
    (w.endPush pass push).1.index.find? place.1 place.2 = w.index.find? place.1 place.2 := by
  cases hfind : w.index.find? push.place.1 push.place.2 with
  | none => rw [endPush_of_find?_eq_none hfind]
  | some c => rw [endPush_of_find? hfind, ChannelIndex.find?_put, if_neg hne]

theorem keeps_endPush (w : Worker) (pass : Pass) (push : Push) :
    w.index.Keeps (w.endPush pass push).1.index := by
  cases hfind : w.index.find? push.place.1 push.place.2 with
  | none =>
    rw [endPush_of_find?_eq_none hfind]
    exact .refl _
  | some c =>
    rw [endPush_of_find? hfind]
    exact ChannelIndex.keeps_put push.place hfind rfl rfl

theorem endPush_snd (w : Worker) (pass : Pass) (push : Push) :
    (w.endPush pass push).2 = report push.place.1 push.tally := rfl

@[simp] theorem endPush_phase (w : Worker) (pass : Pass) (push : Push) :
    (w.endPush pass push).1.phase = .visiting (passAfter pass push) := rfl

/-- How many members a push found gone, where a test passes. -/
theorem goneIn_passAfter (p : Selector → Bool) (pass : Pass) (push : Push) :
    goneIn p (passAfter pass push).pruned =
      goneIn p pass.pruned + if p push.place.1 then push.tally.disconnected else 0 := by
  rw [passAfter, goneIn_append]
  by_cases h : 0 < push.tally.disconnected
  · rw [if_pos h, goneIn_cons, goneIn_nil, Nat.add_zero]
  · rw [if_neg h, goneIn_nil, Nat.eq_zero_of_not_pos h, ite_self]

end Worker

end FlagFanout
