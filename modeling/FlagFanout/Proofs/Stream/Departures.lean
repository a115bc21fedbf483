import FlagFanout.Proofs.Stream.Tallies

/-!
# How connections leave

A connection that joined a channel leaves it because it asks to be closed, because a pass finds its
receiver gone, or because the worker stops. The metrics hear of the first two. A worker that stops
gives all channels up at once and puts its gauges to zero, but it reports nobody closed, and nothing
is reported afterwards (`Halt`).

So the reports of a stream that stopped are short of exactly the connections that were still aboard
when its worker stopped (`Worker.aboard`), selector by selector. They balance where everybody had
left before, and only there: `Run.stranded_of_stopped`.
-/

namespace FlagFanout

/-! ## Who is aboard -/

/-- How many connections with a selector that passes a test were reported opened and not closed:
the members of the channels, and those whom the pass under way found gone. -/
def Worker.aboard (p : Selector → Bool) (w : Worker) : Nat :=
  w.index.load p + goneIn p w.phase.pruned

/-- Nobody is in the channels that pass a test if none of them has members. -/
theorem ChannelIndex.load_eq_zero_iff {i : ChannelIndex} {p : Selector → Bool} :
    i.load p = 0 ↔ ∀ place : Place, p place.1 = true → i.membersAt place = [] := by
  constructor
  · intro h place hp
    cases hfind : i.find? place.1 place.2 with
    | none => rw [membersAt, hfind, Option.elim_none]
    | some c =>
      rw [load_of_find? hfind, share, if_pos hp] at h
      rw [membersAt_of_find? hfind]
      exact List.length_eq_zero_iff.1 (Nat.eq_zero_of_add_eq_zero_right h)
  · intro h
    refine List.sum_eq_zero fun n hn => ?_
    obtain ⟨e, he, rfl⟩ := List.mem_map.1 hn
    have hmembers := h e.1
    rw [membersAt_of_find? (mem_channels_iff.1 he)] at hmembers
    cases hp : p e.1.1 with
    | false => exact if_neg Bool.false_ne_true
    | true => rw [if_pos rfl, hmembers hp, List.length_nil]

/-- Nobody is aboard if the channels have no members and the pass under way found nobody gone. -/
theorem Worker.aboard_eq_zero_iff {w : Worker} {p : Selector → Bool} :
    w.aboard p = 0 ↔ (∀ place : Place, p place.1 = true → w.index.membersAt place = []) ∧
      goneIn p w.phase.pruned = 0 := by
  rw [aboard, Nat.add_eq_zero_iff, ChannelIndex.load_eq_zero_iff]

/-! ## The moment of stopping -/

/-- The moment `s₀`, after `log₀`, at which the worker of `s` stopped, and all that came of it. -/
structure Halt (s₀ : Stream) (log₀ : List Event) (s : Stream) (log : List Event) : Prop where
  run : Run s₀ log₀
  closed : s₀.closed = true
  attentive : s₀.attentive = true
  worker_eq : s.worker = s₀.worker.stop
  /-- Clients may still do something, but the worker does not. -/
  silent : ∃ later, log = log₀ ++ later ∧ ∀ f, .effect f ∉ later

/-- Clients go on. -/
theorem Halt.extend {s₀ s s' : Stream} {log₀ log events : List Event} (h : Halt s₀ log₀ s log)
    (hworker : s'.worker = s.worker) (hquiet : ∀ f, .effect f ∉ events) :
    Halt s₀ log₀ s' (log ++ events) := by
  obtain ⟨later, hlog, hsilent⟩ := h.silent
  refine { h with worker_eq := hworker.trans h.worker_eq, silent := ⟨later ++ events, ?_, ?_⟩ }
  · rw [hlog, List.append_assoc]
  · intro f hf
    rcases List.mem_append.1 hf with hold | hnew
    · exact hsilent f hold
    · exact hquiet f hnew

theorem Run.exists_halt {s : Stream} {log : List Event} (h : Run s log)
    (hstopped : s.worker.phase = .stopped) : ∃ s₀ log₀, Halt s₀ log₀ s log := by
  revert hstopped
  refine h.induct (P := fun s log => s.worker.phase = .stopped → ∃ s₀ log₀, Halt s₀ log₀ s log)
    (fun _ _ _ _ _ _ h => by cases h) fun {s log s' events} hrun ih hmove hstopped => ?_
  cases hmove with
  | work hturn =>
    cases hturn with
    | stop hclosed hattentive =>
      exact ⟨s, log, hrun, hclosed, hattentive, rfl, [], rfl, fun _ => List.not_mem_nil⟩
    | refuse hidle | join hidle | ignore hidle | depart hidle =>
      exact absurd (hidle.symm.trans hstopped) (by simp)
    | endPass | endPush => simp at hstopped
    | stall | begin | pass | produce | serve | resume => cases hstopped
  | still | connect | connectClosed | disconnect | take | leave | close =>
    obtain ⟨s₀, log₀, hhalt⟩ := ih hstopped
    exact ⟨s₀, log₀, hhalt.extend rfl (by simp)⟩

section Silence

variable {later : List Event} (hsilent : ∀ f, .effect f ∉ later) (p : Selector → Bool)

include hsilent

theorem openedIn_of_silent : openedIn p later = 0 := by
  refine List.countP_eq_zero.2 fun ev hev => ?_
  cases ev with
  | effect f => exact absurd hev (hsilent f)
  | opened | joined | closed | produced | offered | taken => exact Bool.false_ne_true

theorem closedIn_of_silent : closedIn p later = 0 := by
  refine List.countP_eq_zero.2 fun ev hev => ?_
  cases ev with
  | effect f => exact absurd hev (hsilent f)
  | opened | joined | closed | produced | offered | taken => exact Bool.false_ne_true

end Silence

/-! ## What is never reported -/

/-- What was reported of the connections of a stream whose worker stopped at `s₀`. -/
structure Stranded (s₀ : Stream) (log₀ : List Event) (s : Stream) (log : List Event) : Prop where
  halt : Halt s₀ log₀ s log
  /-- The gauge counted everybody aboard until the worker stopped, and shows nobody since. -/
  openConnections_before : s₀.worker.counters.openConnections = s₀.worker.aboard fun _ => true
  openConnections_after : s.worker.counters.openConnections = 0
  channels_after : s.worker.counters.channels = 0
  /-- Everybody who was reported opened was reported closed, but for those who were aboard. -/
  opened_eq : ∀ p, openedIn p log = closedIn p log + s₀.worker.aboard p
  balanced_iff : ∀ p, openedIn p log = closedIn p log ↔
    (∀ place : Place, p place.1 = true → s₀.worker.index.membersAt place = []) ∧
      Worker.goneIn p s₀.worker.phase.pruned = 0

/-- **Whoever is aboard when the worker stops is never reported closed**, and everybody else who was
reported opened is. -/
theorem Run.stranded_of_stopped {s : Stream} {log : List Event} (h : Run s log)
    (hstopped : s.worker.phase = .stopped) : ∃ s₀ log₀, Stranded s₀ log₀ s log := by
  obtain ⟨s₀, log₀, hhalt⟩ := h.exists_halt hstopped
  obtain ⟨later, hlog, hsilent⟩ := hhalt.silent
  have hbalanced := hhalt.run.balanced
  have hopened : ∀ p, openedIn p log = closedIn p log + s₀.worker.aboard p := by
    intro p
    have hreports := hbalanced.reports_eq (Stream.running_of_attentive hhalt.attentive) p
    rw [hlog, openedIn_append, closedIn_append, openedIn_of_silent hsilent,
      closedIn_of_silent hsilent, hreports, Worker.aboard]
    omega
  refine ⟨s₀, log₀, hhalt, hbalanced.openConnections_eq, ?_, ?_, hopened, fun p => ?_⟩
  · rw [hhalt.worker_eq]
    rfl
  · rw [hhalt.worker_eq]
    rfl
  · rw [hopened, ← Worker.aboard_eq_zero_iff]
    omega

/-- Of four connections one is closed and one is found gone by a pass. The other two are members of
their channel when the stream is closed. -/
theorem stranded_after_mixed_departures :
    ∃ s log s₀ log₀, Run s log ∧ Stranded s₀ log₀ s log ∧
      openedIn (fun _ => true) log = 4 ∧ closedIn (fun _ => true) log = 2 ∧
      s₀.worker.aboard (fun _ => true) = 2 ∧ s.worker.counters.openConnections = 0 := by
  let e := trialEngine true
  let acts : List Stream.Act :=
    List.replicate 4 (.connect (.flag "f") none) ++
      List.replicate 4 (.work (trialEngine false)) ++
      [.disconnect ⟨⟨0, 0⟩, .flag "f", 0⟩, .work e, .take 1, .leave 2, .take 3] ++
      List.replicate 7 (.work e) ++ [.close e, .work e, .take 1]
  let last := ((trialStream .block).acts? acts).get (by decide +kernel)
  have hrun : Run last.1 last.2 := by
    rw [← List.nil_append last.2]
    exact (run_trialStream .block).acts (Option.some_get _).symm
  obtain ⟨s₀, log₀, hstranded⟩ := hrun.stranded_of_stopped (by rfl)
  have hopened : openedIn (fun _ => true) last.2 = 4 := by decide +kernel
  have hclosed : closedIn (fun _ => true) last.2 = 2 := by decide +kernel
  have haboard := hstranded.opened_eq fun _ => true
  rw [hopened, hclosed] at haboard
  exact ⟨last.1, last.2, s₀, log₀, hrun, hstranded, hopened, hclosed, by omega,
    hstranded.openConnections_after⟩

/-- A stream that stopped need not have reported all its connections closed. -/
theorem not_balanced_of_stopped :
    ¬ ∀ s log, Run s log → s.worker.phase = .stopped → ∀ selector,
      closedIn (· = selector) log = openedIn (· = selector) log := by
  intro hbalanced
  let e := trialEngine false
  let acts : List Stream.Act := [.connect (.flag "f") none, .work e, .close e, .work e]
  let last := ((trialStream .block).acts? acts).get (by decide +kernel)
  have hrun : Run last.1 ([] ++ last.2) := (run_trialStream .block).acts (Option.some_get _).symm
  have hopened : openedIn (· = .flag "f") ([] ++ last.2) = 1 := by decide +kernel
  have hclosed : closedIn (· = .flag "f") ([] ++ last.2) = 0 := by decide +kernel
  have hequal := hbalanced last.1 _ hrun (by rfl) (.flag "f")
  rw [hopened, hclosed] at hequal
  cases hequal

end FlagFanout
