import FlagFanout.Proofs.Stream.Orderly
import Mathlib.Algebra.BigOperators.Group.List.Basic
import Mathlib.Algebra.Group.Prod

/-!
# Deliveries, reports and figures

A delivery enters the books of a stream in three steps. A message lies in its mailbox at once; the
metrics hear of it when the push to its channel ends; the figures of the stream get it when the
pass over the channels ends. In between the three differ by what the worker carries in its hands
(`Phase.total`, `Phase.unreported`), and `Run.tallied` says that they differ by nothing else.

A worker that stops puts nothing down. So the figures of a stream that stopped are short of what
the worker had in its hands when it was cut off (`Run.finalFigures`): of nothing between two jobs,
but of every delivery of a pass that waited for room. A worker that skips messages when there is no
room is never cut off in a pass.
-/

namespace FlagFanout

/-! ## Three ways to count -/

/-- How many messages were placed and how many were skipped, by a tally. -/
def Tally.figures (t : Tally) : Nat × Nat := (t.sent, t.dropped)

@[simp] theorem Tally.figures_add (t u : Tally) : (t + u).figures = t.figures + u.figures := rfl

@[simp] theorem Tally.figures_zero : Tally.zero.figures = 0 := rfl

/-- How many messages were placed and how many were skipped, by the figures of a stream. -/
def Counters.figures (c : Counters) : Nat × Nat := (c.sent, c.dropped)

@[simp] theorem Counters.figures_deliver (c : Counters) (t : Tally) :
    (c.deliver t).figures = c.figures + t.figures := rfl

/-- How many messages were placed in the mailboxes of connections that pass a test, and how many
were skipped there. -/
def deliveries (q : ConnectionId → Bool) (log : List Event) : Nat × Nat :=
  (log.map fun
    | .effect (.placed id _) => if q id then (1, 0) else 0
    | .effect (.skipped id _) => if q id then (0, 1) else 0
    | _ => 0).sum

/-- How many messages were reported as placed, and how many as skipped, where the selector passes a
test. -/
def reported (p : Selector → Bool) (log : List Event) : Nat × Nat :=
  (log.map fun
    | .effect (.metric (.sent n selector)) => if p selector then (n, 0) else 0
    | .effect (.metric (.dropped n selector)) => if p selector then (0, n) else 0
    | _ => 0).sum

section Counting

variable (q : ConnectionId → Bool) (p : Selector → Bool) (log events : List Event)

@[simp] theorem deliveries_nil : deliveries q [] = 0 := rfl

@[simp] theorem reported_nil : reported p [] = 0 := rfl

@[simp] theorem deliveries_append :
    deliveries q (log ++ events) = deliveries q log + deliveries q events := by
  rw [deliveries, List.map_append, List.sum_append]
  rfl

@[simp] theorem reported_append :
    reported p (log ++ events) = reported p log + reported p events := by
  rw [reported, List.map_append, List.sum_append]
  rfl

@[simp] theorem deliveries_joined (id : ConnectionId) (place : Place) (m : Message) :
    deliveries q (.joined id place m :: events) = deliveries q events := by
  simp [deliveries]

@[simp] theorem reported_joined (id : ConnectionId) (place : Place) (m : Message) :
    reported p (.joined id place m :: events) = reported p events := by
  simp [reported]

@[simp] theorem deliveries_offered (id : ConnectionId) (m : Message) (box : Option Mailbox) :
    deliveries q (box.map (Event.offered id m ·)).toList = 0 := by
  cases box <;> rfl

@[simp] theorem reported_offered (id : ConnectionId) (m : Message) (box : Option Mailbox) :
    reported p (box.map (Event.offered id m ·)).toList = 0 := by
  cases box <;> rfl

@[simp] theorem deliveries_trace (id : ConnectionId) (m : Message) (out : Attempt) :
    deliveries q ((out.trace id m).map .effect) = if q id then out.tally.figures else 0 := by
  cases out <;> cases hid : q id <;> simp [deliveries, Attempt.trace, hid] <;> rfl

@[simp] theorem reported_trace (id : ConnectionId) (m : Message) (out : Attempt) :
    reported p ((out.trace id m).map .effect) = 0 := by
  cases out <;> rfl

@[simp] theorem deliveries_report (selector : Selector) (t : Tally) :
    deliveries q ((Worker.report selector t).map .effect) = 0 := by
  unfold Worker.report
  split <;> split <;> rfl

/-- A report leaves out what is zero. -/
@[simp] theorem reported_report (selector : Selector) (t : Tally) :
    reported p ((Worker.report selector t).map .effect) =
      if p selector then t.figures else 0 := by
  obtain ⟨sent, dropped, disconnected⟩ := t
  cases hp : p selector <;> rcases sent with _ | sent <;> rcases dropped with _ | dropped <;>
    simp [reported, Worker.report, Tally.figures, hp, Prod.zero_eq_mk]

/-- Closings count nothing where a single one counts nothing. -/
theorem sum_map_closings {f : Event → Nat × Nat}
    (hf : ∀ selector, f (.effect (.metric (.closed selector))) = 0) (pruned : List (Place × Nat)) :
    (((Worker.closings pruned).map Event.effect).map f).sum = 0 := by
  refine List.sum_eq_zero fun v hv => ?_
  simp only [Worker.closings, List.map_map, List.mem_map, List.mem_flatMap,
    List.mem_replicate] at hv
  obtain ⟨_, ⟨e, -, -, rfl⟩, rfl⟩ := hv
  exact hf e.1.1

@[simp] theorem deliveries_closings (pruned : List (Place × Nat)) :
    deliveries q ((Worker.closings pruned).map .effect) = 0 :=
  sum_map_closings (fun _ => rfl) pruned

@[simp] theorem reported_closings (pruned : List (Place × Nat)) :
    reported p ((Worker.closings pruned).map .effect) = 0 :=
  sum_map_closings (fun _ => rfl) pruned

end Counting

/-! ## What the worker has in its hands -/

namespace Phase

/-- The deliveries to the channels that a pass visited. -/
def total (phase : Phase) : Nat × Nat := phase.pass?.elim 0 (·.total.figures)

/-- The deliveries of which the metrics did not hear yet, where the selector passes a test. -/
def unreported (p : Selector → Bool) (phase : Phase) : Nat × Nat :=
  phase.push?.elim 0 fun push => if p push.place.1 then push.tally.figures else 0

end Phase

/-- A map that tells every connection's selector. -/
def IsSite (site : ConnectionId → Selector) (log : List Event) : Prop :=
  ∀ c context, .opened c context ∈ log → site c.id = c.selector

theorem IsSite.of_append {site : ConnectionId → Selector} {log events : List Event}
    (h : IsSite site (log ++ events)) : IsSite site log :=
  fun c context hc => h c context (List.mem_append_left _ hc)

/-- Every connection has a selector, since it is opened once. -/
theorem Traced.exists_isSite {s : Stream} {log : List Event} (h : Traced s log) :
    ∃ site, IsSite site log := by
  classical
  refine ⟨fun id => if hid : ∃ c context, .opened c context ∈ log ∧ c.id = id then
    hid.choose.selector else .all, fun c context hc => ?_⟩
  beta_reduce
  have hid : ∃ c' context, .opened c' context ∈ log ∧ c'.id = c.id := ⟨c, context, hc, rfl⟩
  obtain ⟨context', hopened, heq⟩ := hid.choose_spec
  rw [dif_pos hid]
  rw [h.unique _ c _ _ hopened hc heq]

/-- What a running worker delivered, reported and counted. -/
structure Tallied (w : Worker) (log : List Event) : Prop where
  reported_eq : reported (fun _ => true) log = w.counters.figures + w.phase.total
  deliveries_eq : ∀ site, IsSite site log → ∀ p : Selector → Bool,
    deliveries (fun id => p (site id)) log = reported p log + w.phase.unreported p

namespace Tallied

variable {s : Stream} {w w' : Worker} {log events : List Event}

theorem idle : Tallied .idle [] := ⟨rfl, fun _ _ _ => rfl⟩

/-- Nothing is delivered and nothing reported. -/
theorem of_quiet (h : Tallied w log)
    (htotal : w'.counters.figures + w'.phase.total = w.counters.figures + w.phase.total)
    (hunreported : ∀ p, w'.phase.unreported p = w.phase.unreported p)
    (hdeliveries : ∀ q, deliveries q events = 0) (hreported : ∀ p, reported p events = 0) :
    Tallied w' (log ++ events) where
  reported_eq := by rw [reported_append, hreported, add_zero, h.reported_eq, htotal]
  deliveries_eq site hsite p := by
    rw [deliveries_append, hdeliveries, reported_append, hreported, add_zero, add_zero,
      hunreported, h.deliveries_eq site hsite.of_append]

/-- Nothing happens at all. -/
theorem of_silent (h : Tallied w log)
    (htotal : w'.counters.figures + w'.phase.total = w.counters.figures + w.phase.total)
    (hunreported : ∀ p, w'.phase.unreported p = w.phase.unreported p) :
    Tallied w' (log ++ []) :=
  h.of_quiet htotal hunreported (fun _ => rfl) fun _ => rfl

/-- The clients do what they like. -/
theorem append (h : Tallied w log) (hdeliveries : ∀ q, deliveries q events = 0)
    (hreported : ∀ p, reported p events = 0) : Tallied w (log ++ events) :=
  h.of_quiet rfl (fun _ => rfl) hdeliveries hreported

/-- A newcomer is greeted, and the greeting is counted at once. -/
theorem join (h : Tallied w log) (htraced : Traced s log) {id : ConnectionId}
    {selector : Selector} {discriminator : UInt64} {context : Option Context} {c : Channel}
    {m : Message} {out : Attempt} (hphase : w.phase = .idle)
    (hid : .established id selector discriminator context ∈ s.queue) :
    Tallied ((w.count out.tally).join selector discriminator c id)
      (log ++ .joined id (selector, discriminator) m ::
        (out.trace id m ++ Worker.report selector out.tally ++
          [Effect.metric (.opened selector)]).map .effect) := by
  have hopened := htraced.of_queue id selector discriminator context hid
  have hreported : ∀ p : Selector → Bool,
      reported p (.joined id (selector, discriminator) m ::
        (out.trace id m ++ Worker.report selector out.tally ++
          [Effect.metric (.opened selector)]).map .effect) =
        if p selector then out.tally.figures else 0 := by
    intro p
    rw [reported_joined, List.map_append, List.map_append, reported_append, reported_append,
      reported_trace, reported_report, zero_add]
    exact add_zero _
  refine ⟨?_, fun site hsite p => ?_⟩
  · rw [reported_append, hreported, if_pos rfl, h.reported_eq, hphase]
    change w.counters.figures + 0 + out.tally.figures =
      w.counters.figures + out.tally.figures + Phase.total w.phase
    rw [hphase, add_zero]
    exact (add_zero _).symm
  · have hselector : site id = selector :=
      hsite _ context (List.mem_append_left _ hopened)
    rw [deliveries_append, reported_append, hreported, h.deliveries_eq site hsite.of_append,
      deliveries_joined, List.map_append, List.map_append, deliveries_append, deliveries_append,
      deliveries_trace, deliveries_report, hselector, hphase, add_zero]
    change reported p log + 0 + (_ + 0) = _ + Phase.unreported p w.phase
    rw [hphase, add_zero, add_zero]
    exact (add_zero _).symm

/-- A member of a channel is served; only the push knows. -/
theorem serve (h : Tallied s.worker log) (henrolled : Enrolled s log) (htraced : Traced s log)
    {pass : Pass} {push : Push} {id : ConnectionId} {waiting served : List ConnectionId}
    {out : Attempt} {box : Option Mailbox} (hphase : s.worker.phase = .pushing pass push)
    (hwaiting : push.waiting = id :: waiting) :
    Tallied
      { s.worker with
        phase := .pushing pass { push with served, waiting, tally := push.tally + out.tally } }
      (log ++ ((box.map (.offered id push.message ·)).toList ++
        (out.trace id push.message).map .effect)) := by
  have hpush : s.worker.phase.push? = some push := by rw [hphase]; rfl
  have hmem := Worker.mem_roster_of_waiting hpush hwaiting
  have hplace := (henrolled.mem_roster_iff (by simp [hphase]) push.place id).1 hmem
  obtain ⟨context, hopened⟩ := htraced.of_place id push.place hplace
  refine ⟨?_, fun site hsite p => ?_⟩
  · rw [reported_append, reported_append, reported_offered, reported_trace, h.reported_eq, hphase]
    rfl
  · have hselector : site id = push.place.1 :=
      hsite _ context (List.mem_append_left _ hopened)
    rw [deliveries_append, deliveries_append, deliveries_offered, deliveries_trace,
      reported_append, reported_append, reported_offered, reported_trace, hselector,
      h.deliveries_eq site hsite.of_append, hphase, zero_add, add_zero, add_zero, add_assoc]
    congr 1
    change (if _ then _ else _) + _ = if _ then _ else _
    split
    · rw [Tally.figures_add]
    · rfl

/-- A push ends: the metrics hear of it, and the pass has it on its account. -/
theorem endPush (h : Tallied w log) {pass : Pass} {push : Push}
    (hphase : w.phase = .pushing pass push) :
    Tallied (w.endPush pass push).1
      (log ++ (Worker.report push.place.1 push.tally).map .effect) := by
  refine ⟨?_, fun site hsite p => ?_⟩
  · rw [reported_append, reported_report, if_pos rfl, h.reported_eq, hphase, Worker.endPush_phase,
      add_assoc]
    rfl
  · rw [deliveries_append, deliveries_report, reported_append, reported_report,
      h.deliveries_eq site hsite.of_append, hphase, Worker.endPush_phase, add_zero]
    exact (add_zero _).symm

/-- A pass ends, and the figures get what it has on its account. -/
theorem endPass (h : Tallied w log) {pass : Pass} (hphase : w.phase = .visiting pass) :
    Tallied (w.endPass pass).1 (log ++ (w.endPass pass).2.map .effect) := by
  have hpruned := Worker.isPruned_endPass w pass
  rw [Worker.endPass_snd]
  refine h.of_quiet ?_ (fun p => ?_) (deliveries_closings · _) (reported_closings · _)
  · have hfigures : (w.endPass pass).1.counters.figures = w.counters.figures + pass.total.figures :=
      Prod.ext hpruned.sent_eq hpruned.dropped_eq
    rw [hfigures, Worker.endPass_phase, hphase]
    exact add_zero _
  · rw [Worker.endPass_phase, hphase]
    rfl

theorem turn (h : Tallied s.worker log) (henrolled : Enrolled s log) (htraced : Traced s log)
    {e : Engine} {next : Stream.Step} (hturn : Stream.Turn e s next events)
    (hrunning : next.stream.worker.phase ≠ .stopped) :
    Tallied next.stream.worker (log ++ events) := by
  cases hturn with
  | stop => exact absurd rfl hrunning
  | refuse => exact h.of_silent rfl fun _ => rfl
  | join hphase hqueue => exact h.join htraced hphase (hqueue ▸ List.mem_cons_self)
  | ignore => exact h.append (fun _ => rfl) fun _ => rfl
  | depart => exact h.of_quiet rfl (fun _ => rfl) (fun _ => rfl) fun _ => rfl
  | begin hphase => exact h.of_silent (by rw [hphase]; rfl) fun _ => by rw [hphase]; rfl
  | pass hphase => exact h.of_silent (by rw [hphase]; rfl) fun _ => by rw [hphase]; rfl
  | produce hphase =>
    refine h.of_quiet (by rw [hphase]; rfl) (fun p => ?_) (fun _ => rfl) fun _ => rfl
    rw [hphase]
    exact ite_self _
  | endPass hphase => exact h.endPass hphase
  | serve hphase hwaiting => exact h.serve henrolled htraced hphase hwaiting
  | stall hphase => exact h.of_silent (by rw [hphase]; rfl) fun _ => by rw [hphase]; rfl
  | resume hphase => exact h.of_silent (by rw [hphase]; rfl) fun _ => by rw [hphase]; rfl
  | endPush hphase => exact h.endPush hphase

end Tallied

/-- A worker looks out for the end between two jobs and while it waits for room. -/
theorem Stream.phase_of_attentive {s : Stream} (h : s.attentive = true) :
    s.worker.phase = .idle ∨ ∃ pass push, s.worker.phase = .stalled pass push := by
  unfold attentive at h
  split at h
  · next hphase => exact .inl hphase
  · next hphase => exact .inr ⟨_, _, hphase⟩
  · cases h

theorem Stream.running_of_attentive {s : Stream} (h : s.attentive = true) :
    s.worker.phase ≠ .stopped := by
  rcases phase_of_attentive h with hphase | ⟨pass, push, hphase⟩ <;> simp [hphase]

/-- A worker that stopped takes no more turns. -/
theorem Stream.Turn.running {s : Stream} {e : Engine} {next : Stream.Step} {events : List Event}
    (hturn : Stream.Turn e s next events) : s.worker.phase ≠ .stopped := by
  cases hturn with
  | stop hclosed hattentive => exact Stream.running_of_attentive hattentive
  | refuse hphase | join hphase | ignore hphase | depart hphase | begin hphase | pass hphase
  | produce hphase | endPass hphase | serve hphase | stall hphase | resume hphase
  | endPush hphase => simp [hphase]

/-- While the worker runs, its three ways to count differ by what it has in its hands. -/
theorem Run.tallied {s : Stream} {log : List Event} (h : Run s log)
    (hrunning : s.worker.phase ≠ .stopped) : Tallied s.worker log := by
  revert hrunning
  refine h.induct (P := fun s log => s.worker.phase ≠ .stopped → Tallied s.worker log)
    (fun _ _ _ _ _ _ _ => .idle) fun {s log s' events} hrun ih hmove hrunning => ?_
  cases hmove with
  | work hturn => exact (ih hturn.running).turn hrun.enrolled hrun.traced hturn hrunning
  | still | connect | connectClosed | disconnect | take | leave | close =>
    exact (ih hrunning).append (fun _ => rfl) fun _ => rfl

/-! ## Stopping -/

theorem Run.eq_block_of_stalled {s : Stream} {log : List Event} (h : Run s log) {pass : Pass}
    {push : Push} (hphase : s.worker.phase = .stalled pass push) : s.config.delivery = .block := by
  revert hphase
  refine h.induct (P := fun s _ => s.worker.phase = .stalled pass push → s.config.delivery = .block)
    (fun _ _ _ _ _ _ h => by cases h) fun {s log s' events} hrun ih hmove hphase => ?_
  rw [hmove.config_eq]
  cases hmove with
  | work hturn =>
    cases hturn with
    | stall _ _ hout => exact s.mailboxes.eq_block_of_waiting hout
    | refuse hidle | join hidle | ignore hidle | depart hidle =>
      exact absurd (hidle.symm.trans hphase) (by simp)
    | endPass | endPush => simp at hphase
    | stop | begin | pass | produce | serve | resume => cases hphase
  | still | connect | connectClosed | disconnect | take | leave | close => exact ih hphase

/-- The moment `s₀`, after `log₀`, at which the worker of `s` was cut off. -/
structure CutOff (s₀ : Stream) (log₀ : List Event) (s : Stream) (log : List Event) : Prop where
  run : Run s₀ log₀
  closed : s₀.closed = true
  attentive : s₀.attentive = true
  delivery_eq : s.config.delivery = s₀.config.delivery
  figures_eq : s.worker.counters.figures = s₀.worker.counters.figures
  deliveries_eq : ∀ q, deliveries q log = deliveries q log₀
  reported_eq : ∀ p, reported p log = reported p log₀

/-- A worker that stopped was cut off at some moment, and nothing was delivered afterwards. -/
theorem Run.exists_cutOff {s : Stream} {log : List Event} (h : Run s log)
    (hstopped : s.worker.phase = .stopped) : ∃ s₀ log₀, CutOff s₀ log₀ s log := by
  revert hstopped
  refine h.induct (P := fun s log => s.worker.phase = .stopped → ∃ s₀ log₀, CutOff s₀ log₀ s log)
    (fun _ _ _ _ _ _ h => by cases h) fun {s log s' events} hrun ih hmove hstopped => ?_
  cases hmove with
  | work hturn =>
    cases hturn with
    | stop hclosed hattentive =>
      refine ⟨s, log, hrun, hclosed, hattentive, rfl, rfl, fun q => ?_, fun p => ?_⟩
      · rw [List.append_nil]
      · rw [List.append_nil]
    | refuse hidle | join hidle | ignore hidle | depart hidle =>
      exact absurd (hidle.symm.trans hstopped) (by simp)
    | endPass | endPush => simp at hstopped
    | stall | begin | pass | produce | serve | resume => cases hstopped
  | still | connect | connectClosed | disconnect | take | leave | close =>
    obtain ⟨s₀, log₀, hcut⟩ := ih hstopped
    exact ⟨s₀, log₀,
      { hcut with
        deliveries_eq := fun q => by
          rw [deliveries_append, hcut.deliveries_eq]
          exact add_zero _
        reported_eq := fun p => by
          rw [reported_append, hcut.reported_eq]
          exact add_zero _ }⟩

/-- The figures of a stream show every delivery, and so do the reports. -/
def IsExact (s : Stream) (log : List Event) : Prop :=
  deliveries (fun _ => true) log = s.worker.counters.figures ∧
    reported (fun _ => true) log = s.worker.counters.figures

/-- What the figures show of a stream that stopped. -/
structure FinalFigures (s : Stream) (log : List Event) : Prop where
  /-- Where messages are skipped when there is no room, nothing is missing. -/
  exact_of_dropNewest : s.config.delivery = .dropNewest → IsExact s log
  /-- Nothing is missing, unless the worker was cut off in a pass that waited for room: then the
  figures are short of all deliveries of that pass, and the reports of those to the channel where it
  waited. -/
  exact_or_cutOff : IsExact s log ∨ ∃ s₀ log₀ pass push,
    CutOff s₀ log₀ s log ∧ s₀.worker.phase = .stalled pass push ∧
      deliveries (fun _ => true) log =
        s.worker.counters.figures + pass.total.figures + push.tally.figures ∧
      deliveries (fun _ => true) log = reported (fun _ => true) log + push.tally.figures

/-- **The figures of a stream that stopped are short of the pass that was cut off**, and of nothing
else. -/
theorem Run.finalFigures {s : Stream} {log : List Event} (h : Run s log)
    (hstopped : s.worker.phase = .stopped) : FinalFigures s log := by
  obtain ⟨s₀, log₀, hcut⟩ := h.exists_cutOff hstopped
  have htallied := hcut.run.tallied (Stream.running_of_attentive hcut.attentive)
  obtain ⟨site, hsite⟩ := hcut.run.traced.exists_isSite
  have hreported : reported (fun _ => true) log =
      s.worker.counters.figures + s₀.worker.phase.total := by
    rw [hcut.reported_eq, hcut.figures_eq, htallied.reported_eq]
  have hdeliveries : deliveries (fun _ => true) log =
      reported (fun _ => true) log + s₀.worker.phase.unreported fun _ => true := by
    rw [hcut.deliveries_eq, hcut.reported_eq]
    exact htallied.deliveries_eq site hsite fun _ => true
  rcases Stream.phase_of_attentive hcut.attentive with hphase | ⟨pass, push, hphase⟩
  · have hexact : IsExact s log := by
      rw [hphase] at hreported hdeliveries
      rw [hreported] at hdeliveries
      exact ⟨hdeliveries, hreported⟩
    exact ⟨fun _ => hexact, .inl hexact⟩
  · refine ⟨fun hpolicy => ?_, .inr ⟨s₀, log₀, pass, push, hcut, hphase, ?_, ?_⟩⟩
    · rw [hcut.delivery_eq, hcut.run.eq_block_of_stalled hphase] at hpolicy
      cases hpolicy
    · rw [hdeliveries, hreported, hphase]
      rfl
    · rw [hdeliveries, hphase]
      rfl

/-- Two channels are pushed to in one pass: the first is served and reported, and in the second the
worker waits for room behind the member that it served already when the stream is closed. -/
theorem figures_after_cutOff :
    ∃ s log, Run s log ∧ s.worker.phase = .stopped ∧ deliveries (fun _ => true) log = (5, 0) ∧
      reported (fun _ => true) log = (4, 0) ∧ s.worker.counters.figures = (3, 0) ∧
      FinalFigures s log := by
  let e := trialEngine true
  let acts : List Stream.Act :=
    [.connect (.flag "f") none, .connect .all none, .connect .all none] ++
      List.replicate 3 (.work (trialEngine false)) ++ [.take 0, .take 1] ++
      List.replicate 7 (.work e) ++ [.close e, .work e]
  let last := ((trialStream .block).acts? acts).get (by decide +kernel)
  have hrun : Run last.1 last.2 := by
    rw [← List.nil_append last.2]
    exact (run_trialStream .block).acts (Option.some_get _).symm
  have hstopped : last.1.worker.phase = .stopped := by rfl
  exact ⟨last.1, last.2, hrun, hstopped, by decide +kernel, by decide +kernel, by decide +kernel,
    hrun.finalFigures hstopped⟩

/-- The figures of a stream that stopped can be short of what was placed, and of what was
reported. -/
theorem not_exact_of_stopped :
    ¬ ∀ s log, Run s log → s.worker.phase = .stopped →
      s.worker.counters.sent = (deliveries (fun _ => true) log).1 ∧
        s.worker.counters.sent = (reported (fun _ => true) log).1 := by
  intro hexact
  let e := trialEngine true
  let acts : List Stream.Act :=
    [.connect (.flag "f") none, .connect (.flag "f") none] ++
      List.replicate 2 (.work (trialEngine false)) ++ [.take 0] ++
      List.replicate 4 (.work e) ++ [.close e, .work e]
  let last := ((trialStream .block).acts? acts).get (by decide +kernel)
  have hrun : Run last.1 ([] ++ last.2) := (run_trialStream .block).acts (Option.some_get _).symm
  have hsent : last.1.worker.counters.sent = 2 := by decide +kernel
  have hplaced : (deliveries (fun _ => true) ([] ++ last.2)).1 = 3 := by decide +kernel
  have hequal := (hexact last.1 _ hrun (by rfl)).1
  rw [hsent, hplaced] at hequal
  cases hequal

end FlagFanout
