import FlagFanout.Proofs.Stream.Roster

/-!
# The books of a worker

A worker keeps its index, two gauges and the reports to the metrics, and every operation has to
bring all of them along. `Balanced` says how they hang together in the middle of a pass, where
members were found gone and not yet accounted for; every move of a stream keeps it.

The main statement is `Run.balanced`: the books are balanced after every run.
-/

namespace FlagFanout

/-! ## Counting reports -/

/-- How often a connection was reported opened, where the selector passes a test. -/
def openedIn (p : Selector → Bool) (log : List Event) : Nat :=
  log.countP fun
    | .effect (.metric (.opened selector)) => p selector
    | _ => false

/-- How often a connection was reported closed, where the selector passes a test. -/
def closedIn (p : Selector → Bool) (log : List Event) : Nat :=
  log.countP fun
    | .effect (.metric (.closed selector)) => p selector
    | _ => false

section Reports

variable (p : Selector → Bool) (log events : List Event)

@[simp] theorem openedIn_append : openedIn p (log ++ events) = openedIn p log + openedIn p events :=
  List.countP_append

@[simp] theorem closedIn_append : closedIn p (log ++ events) = closedIn p log + closedIn p events :=
  List.countP_append

@[simp] theorem openedIn_nil : openedIn p [] = 0 := rfl

@[simp] theorem closedIn_nil : closedIn p [] = 0 := rfl

@[simp] theorem openedIn_joined (id : ConnectionId) (place : Place) (m : Message) :
    openedIn p (.joined id place m :: events) = openedIn p events := by
  simp [openedIn]

@[simp] theorem closedIn_joined (id : ConnectionId) (place : Place) (m : Message) :
    closedIn p (.joined id place m :: events) = closedIn p events := by
  simp [closedIn]

@[simp] theorem openedIn_trace (id : ConnectionId) (m : Message) (out : Attempt) :
    openedIn p ((out.trace id m).map .effect) = 0 := by
  cases out <;> rfl

@[simp] theorem closedIn_trace (id : ConnectionId) (m : Message) (out : Attempt) :
    closedIn p ((out.trace id m).map .effect) = 0 := by
  cases out <;> rfl

@[simp] theorem openedIn_report (selector : Selector) (t : Tally) :
    openedIn p ((Worker.report selector t).map .effect) = 0 := by
  unfold Worker.report
  split <;> split <;> rfl

@[simp] theorem closedIn_report (selector : Selector) (t : Tally) :
    closedIn p ((Worker.report selector t).map .effect) = 0 := by
  unfold Worker.report
  split <;> split <;> rfl

theorem openedIn_greeting (id : ConnectionId) (selector : Selector) (m : Message)
    (out : Attempt) :
    openedIn p ((out.trace id m ++ Worker.report selector out.tally ++
      [Effect.metric (.opened selector)]).map .effect) = if p selector then 1 else 0 := by
  rw [List.map_append, List.map_append, openedIn_append, openedIn_append, openedIn_trace,
    openedIn_report]
  simp [openedIn, List.countP_cons]

theorem closedIn_greeting (id : ConnectionId) (selector : Selector) (m : Message)
    (out : Attempt) :
    closedIn p ((out.trace id m ++ Worker.report selector out.tally ++
      [Effect.metric (.opened selector)]).map .effect) = 0 := by
  rw [List.map_append, List.map_append, closedIn_append, closedIn_append, closedIn_trace,
    closedIn_report]
  rfl

@[simp] theorem openedIn_closings (pruned : List (Place × Nat)) :
    openedIn p ((Worker.closings pruned).map .effect) = 0 := by
  refine List.countP_eq_zero.2 fun ev hev => ?_
  obtain ⟨f, hf, rfl⟩ := List.mem_map.1 hev
  obtain ⟨e, -, hf⟩ := List.mem_flatMap.1 hf
  rw [List.eq_of_mem_replicate hf]
  exact Bool.false_ne_true

@[simp] theorem closedIn_closings (pruned : List (Place × Nat)) :
    closedIn p ((Worker.closings pruned).map .effect) = Worker.goneIn p pruned := by
  induction pruned with
  | nil => rfl
  | cons e rest ih =>
    rw [Worker.closings, List.flatMap_cons, List.map_append, closedIn_append, ← Worker.closings,
      ih, Worker.goneIn_cons, List.map_replicate]
    congr 1
    unfold closedIn
    rw [List.countP_replicate]

end Reports

/-! ## What the operations do to the load -/

namespace Worker

variable {i : ChannelIndex} {place : Place} {c : Channel}

theorem load_put_same_members (h : i.find? place.1 place.2 = some c) {c' : Channel}
    (hmembers : c'.members = c.members) (p : Selector → Bool) :
    (i.put place.1 place.2 c').load p = i.load p := by
  rw [ChannelIndex.load_put, ChannelIndex.load_of_find? h, hmembers]

/-- Writing the channel for a newcomer changes the load by its members alone. -/
theorem load_put_channelFor {w : Worker} {ev : Evaluator} {context : Option Context}
    (h : w.channelFor ev place.1 place.2 context = c) (c' : Channel) (p : Selector → Bool) :
    (w.index.put place.1 place.2 c').load p + ChannelIndex.share p place.1 c.members =
      w.index.load p + ChannelIndex.share p place.1 c'.members := by
  rw [ChannelIndex.load_put]
  cases hfind : w.index.find? place.1 place.2 with
  | none =>
    have hmembers : c.members = [] := by rw [← h, channelFor_of_find?_eq_none hfind]; rfl
    rw [ChannelIndex.load_of_find?_eq_none hfind, hmembers]
    simp only [ChannelIndex.share, List.length_nil, ite_self]
    omega
  | some c₀ =>
    have hc : c₀ = c := by rw [← h, channelFor_of_find? hfind]
    rw [ChannelIndex.load_of_find? hfind, hc]
    omega

theorem find?_collected (i : ChannelIndex) (pruned : List (Place × Nat)) (place : Place) :
    (collected i pruned).find? place.1 place.2 =
      if place ∈ pruned.map (·.1) ∧ (i.find? place.1 place.2).any (·.isEmpty) then none
      else i.find? place.1 place.2 := by
  induction pruned generalizing i with
  | nil => simp [collected]
  | cons e rest ih =>
    rw [collected, List.foldl_cons, ← collected, ih, ChannelIndex.find?_collect]
    simp only [List.map_cons, List.mem_cons]
    by_cases he : place = e.1
    · subst he
      by_cases hany : (i.find? e.1.1 e.1.2).any (·.isEmpty) = true <;> simp [hany]
    · simp only [he, false_and, if_false, false_or]

/-- A channel that is empty after another was written and collected was empty before. -/
theorem find?_of_collect_put {place' : Place} {c' : Channel}
    (h : ((i.put place.1 place.2 c).collect place.1 place.2).find? place'.1 place'.2 = some c')
    (he : c'.members = []) : i.find? place'.1 place'.2 = some c' := by
  rw [ChannelIndex.find?_collect, ChannelIndex.find?_put, ChannelIndex.find?_put] at h
  by_cases hp : place' = place
  · simp only [hp, if_true, true_and, Option.any_some] at h
    split at h
    · cases h
    · next hne =>
      cases h
      exact absurd (List.isEmpty_iff.2 he) hne
  · rwa [if_neg fun hc => hp hc.1, if_neg hp] at h

theorem load_collected (i : ChannelIndex) (pruned : List (Place × Nat)) (p : Selector → Bool) :
    (collected i pruned).load p = i.load p := by
  induction pruned generalizing i with
  | nil => rfl
  | cons e rest ih => rw [collected, List.foldl_cons, ← collected, ih, ChannelIndex.load_collect]

theorem tight_collected {i : ChannelIndex} (h : i.Tight) (pruned : List (Place × Nat)) :
    (collected i pruned).Tight := by
  induction pruned generalizing i with
  | nil => exact h
  | cons e rest ih => exact ih (h.collect e.1)

end Worker

/-! ## The books at every moment -/

/-- How the index, the gauges and the reports of a worker hang together at every moment. -/
structure Balanced (w : Worker) (log : List Event) : Prop where
  openConnections_eq : w.counters.openConnections =
    w.index.load (fun _ => true) + Worker.goneIn (fun _ => true) w.phase.pruned
  channels_eq : w.counters.channels = w.index.count
  /-- Whoever was reported opened was reported closed, is a member or was found gone. -/
  reports_eq : w.phase ≠ .stopped → ∀ p,
    openedIn p log = closedIn p log + w.index.load p + Worker.goneIn p w.phase.pruned
  tight : w.index.Tight
  /-- A channel without members is one where members were found gone. -/
  mem_pruned_of_empty : ∀ (place : Place) c, w.index.find? place.1 place.2 = some c →
    c.members = [] → place ∈ w.phase.pruned.map (·.1)
  /-- The index still lists whom a push found gone. -/
  push_length : ∀ push c, w.phase.push? = some push →
    w.index.find? push.place.1 push.place.2 = some c →
    c.members.length = push.served.length + push.waiting.length + push.tally.disconnected

namespace Balanced

variable {w : Worker} {log : List Event}

theorem idle : Balanced .idle [] where
  openConnections_eq := rfl
  channels_eq := rfl
  reports_eq _ _ := rfl
  tight := ChannelIndex.tight_empty
  mem_pruned_of_empty _ _ h := nomatch h
  push_length _ _ h := nomatch h

/-- What is neither an opening nor a closing is not in the books. -/
theorem append (h : Balanced w log) {events : List Event} (hopened : ∀ p, openedIn p events = 0)
    (hclosed : ∀ p, closedIn p events = 0) : Balanced w (log ++ events) :=
  { h with
    reports_eq := fun hp p => by
      rw [openedIn_append, closedIn_append, hopened, hclosed]
      exact h.reports_eq hp p }

theorem stop (w : Worker) (log : List Event) : Balanced w.stop log where
  openConnections_eq := rfl
  channels_eq := rfl
  reports_eq hp := absurd rfl hp
  tight := ChannelIndex.tight_empty
  mem_pruned_of_empty _ _ h := nomatch h
  push_length _ _ h := nomatch h

/-- Another phase of a pass with the same members found gone. -/
theorem with_phase (h : Balanced w log) {phase : Phase} (hrunning : w.phase ≠ .stopped)
    (hpruned : phase.pruned = w.phase.pruned)
    (hlength : ∀ push c, phase.push? = some push →
      w.index.find? push.place.1 push.place.2 = some c →
      c.members.length = push.served.length + push.waiting.length + push.tally.disconnected) :
    Balanced { w with phase } log where
  openConnections_eq := hpruned ▸ h.openConnections_eq
  channels_eq := h.channels_eq
  reports_eq _ := hpruned ▸ h.reports_eq hrunning
  tight := h.tight
  mem_pruned_of_empty := hpruned ▸ h.mem_pruned_of_empty
  push_length := hlength

/-! ### Commands -/

theorem refuse (h : Balanced w log) (place : Place) {ev : Evaluator} {context : Option Context}
    {c : Channel} (hphase : w.phase = .idle)
    (hchannel : w.channelFor ev place.1 place.2 context = c) :
    Balanced ({ w with index := w.index.put place.1 place.2 c }.collect place) log := by
  have hload : ∀ p, ((w.index.put place.1 place.2 c).collect place.1 place.2).load p =
      w.index.load p := by
    intro p
    rw [ChannelIndex.load_collect]
    exact Nat.add_right_cancel (Worker.load_put_channelFor hchannel c p)
  refine
    { openConnections_eq := h.openConnections_eq.trans (by rw [← hload]; rfl)
      channels_eq := rfl
      reports_eq := fun hp p => (h.reports_eq hp p).trans (by rw [← hload]; rfl)
      tight := (h.tight.put place c).collect place
      mem_pruned_of_empty := fun place' c' hc' he => ?_
      push_length := fun push c' hp => ?_ }
  · exact h.mem_pruned_of_empty place' c' (Worker.find?_of_collect_put hc' he) he
  · change w.phase.push? = some push at hp
    rw [hphase] at hp
    cases hp

theorem join (h : Balanced w log) (place : Place) {ev : Evaluator} {context : Option Context}
    {c : Channel} {id : ConnectionId} {t : Tally} {out : Attempt} {m : Message}
    (hphase : w.phase = .idle) (hchannel : w.channelFor ev place.1 place.2 context = c) :
    Balanced ((w.count t).join place.1 place.2 c id)
      (log ++ .joined id place m ::
        (out.trace id m ++ Worker.report place.1 out.tally ++
          [Effect.metric (.opened place.1)]).map .effect) := by
  have hpruned : w.phase.pruned = [] := by rw [hphase]; rfl
  have hload : ∀ p, (w.index.put place.1 place.2 (c.join id)).load p =
      w.index.load p + if p place.1 then 1 else 0 := by
    intro p
    have hput := Worker.load_put_channelFor hchannel (c.join id) p
    have hshare : ChannelIndex.share p place.1 (c.join id).members =
        ChannelIndex.share p place.1 c.members + if p place.1 then 1 else 0 := by
      simp only [ChannelIndex.share, Channel.join, List.length_append, List.length_singleton]
      split <;> rfl
    omega
  have hopen := h.openConnections_eq
  have hreports := h.reports_eq (by simp [hphase])
  simp only [hpruned, Worker.goneIn_nil, Nat.add_zero] at hopen hreports
  refine
    { openConnections_eq := ?_
      channels_eq := rfl
      reports_eq := fun _ p => ?_
      tight := h.tight.put place _
      mem_pruned_of_empty := fun place' c' hc' he => ?_
      push_length := fun push c' hp => ?_ }
  · have hgone : Worker.goneIn (fun _ => true) ((w.count t).join place.1 place.2 c id).phase.pruned
        = 0 := congrArg (Worker.goneIn _) hpruned
    rw [hgone]
    refine (congrArg (· + 1) hopen).trans ?_
    exact (hload fun _ => true).symm
  · have hgone : Worker.goneIn p ((w.count t).join place.1 place.2 c id).phase.pruned = 0 :=
      congrArg (Worker.goneIn p) hpruned
    have hload' : ((w.count t).join place.1 place.2 c id).index.load p =
        w.index.load p + if p place.1 then 1 else 0 := hload p
    rw [openedIn_append, closedIn_append, openedIn_joined, closedIn_joined, openedIn_greeting,
      closedIn_greeting, hload', hgone, hreports]
    omega
  · have hc₀ := (ChannelIndex.find?_put w.index place place' (c.join id)).symm.trans hc'
    by_cases hp : place' = place
    · rw [if_pos hp] at hc₀
      cases hc₀
      simp [Channel.join] at he
    · rw [if_neg hp] at hc₀
      exact h.mem_pruned_of_empty place' c' hc₀ he
  · change w.phase.push? = some push at hp
    rw [hphase] at hp
    cases hp

/-- A member that leaves its channel takes its part of the load along. -/
theorem load_leave {i : ChannelIndex} (place : Place) {c : Channel} {id : ConnectionId}
    (hfind : i.find? place.1 place.2 = some c) (hmember : id ∈ c.members) (p : Selector → Bool) :
    ((i.put place.1 place.2 (c.leave id)).collect place.1 place.2).load p +
      (if p place.1 then 1 else 0) = i.load p := by
  rw [ChannelIndex.load_collect, ChannelIndex.load_put, ChannelIndex.load_of_find? hfind]
  have hlength : (c.leave id).members.length = c.members.length - 1 :=
    List.length_erase_of_mem hmember
  have hpos : 0 < c.members.length := List.length_pos_of_mem hmember
  simp only [ChannelIndex.share, hlength]
  split <;> omega

theorem depart (h : Balanced w log) (place : Place) {c : Channel} {id : ConnectionId}
    (hphase : w.phase = .idle) (hfind : w.index.find? place.1 place.2 = some c)
    (hmember : id ∈ c.members) :
    Balanced
      ({ w with index := w.index.put place.1 place.2 (c.leave id) }.collect place).retire
      (log ++ [.closed id place, .effect (.metric (.closed place.1))]) := by
  have hpruned : w.phase.pruned = [] := by rw [hphase]; rfl
  have hopen := h.openConnections_eq
  have hreports := h.reports_eq (by simp [hphase])
  simp only [hpruned, Worker.goneIn_nil, Nat.add_zero] at hopen hreports
  set w' := ({ w with index := w.index.put place.1 place.2 (c.leave id) }.collect place).retire
    with hw'
  have hpruned' : w'.phase.pruned = [] := hpruned
  have hload : ∀ p, w'.index.load p + (if p place.1 then 1 else 0) = w.index.load p :=
    load_leave place hfind hmember
  refine
    { openConnections_eq := ?_
      channels_eq := rfl
      reports_eq := fun _ p => ?_
      tight := (h.tight.put place _).collect place
      mem_pruned_of_empty := fun place' c' hc' he => ?_
      push_length := fun push c' hp => ?_ }
  · have hgauge : w'.counters.openConnections = w.counters.openConnections - 1 := rfl
    have hall := hload fun _ => true
    rw [if_pos rfl] at hall
    rw [hpruned', Worker.goneIn_nil, hgauge, hopen]
    omega
  · have hopened : openedIn p [.closed id place, .effect (.metric (.closed place.1))] = 0 := rfl
    have hclosed : closedIn p [.closed id place, .effect (.metric (.closed place.1))] =
        if p place.1 then 1 else 0 := by
      simp [closedIn, List.countP_cons]
    rw [hpruned', Worker.goneIn_nil, openedIn_append, closedIn_append, hopened, hclosed,
      hreports, ← hload p]
    omega
  · exact h.mem_pruned_of_empty place' c' (Worker.find?_of_collect_put hc' he) he
  · change w.phase.push? = some push at hp
    rw [hphase] at hp
    cases hp

/-! ### Passes -/

/-- Writing what a channel last delivered leaves the books alone. -/
theorem produce (h : Balanced w log) {pass : Pass} {place : Place} {todo : List Place}
    {c : Channel} {last : Snapshot} {m : Message} (hphase : w.phase = .visiting pass)
    (hfind : w.index.find? place.1 place.2 = some c) :
    Balanced
      { w with
        index := w.index.put place.1 place.2 { c with last }
        phase := .pushing { pass with todo } ⟨place, m, [], c.members, .zero⟩ } log := by
  have hpruned : w.phase.pruned = pass.pruned := by rw [hphase]; rfl
  have hload : ∀ p, (w.index.put place.1 place.2 { c with last }).load p = w.index.load p :=
    Worker.load_put_same_members hfind rfl
  refine
    { openConnections_eq := ?_
      channels_eq := h.channels_eq.trans (ChannelIndex.count_put_of_find? hfind _).symm
      reports_eq := fun _ p => ?_
      tight := h.tight.put place _
      mem_pruned_of_empty := fun place' c' hc' he => ?_
      push_length := fun push c' hp hc' => ?_ }
  · refine h.openConnections_eq.trans ?_
    rw [hpruned, ← hload]
    rfl
  · refine (h.reports_eq (by simp [hphase]) p).trans ?_
    rw [hpruned, ← hload]
    rfl
  · have hc₀ := (ChannelIndex.find?_put ..).symm.trans hc'
    have hold : ∃ c₀, w.index.find? place'.1 place'.2 = some c₀ ∧ c₀.members = [] := by
      by_cases hp : place' = place
      · rw [if_pos hp] at hc₀
        cases hc₀
        exact ⟨c, hp ▸ hfind, he⟩
      · rw [if_neg hp] at hc₀
        exact ⟨c', hc₀, he⟩
    obtain ⟨c₀, hfind₀, he₀⟩ := hold
    exact hpruned ▸ h.mem_pruned_of_empty place' c₀ hfind₀ he₀
  · cases hp
    have hc₀ := (ChannelIndex.find?_put_self ..).symm.trans hc'
    cases hc₀
    simp [Tally.zero]

theorem endPass (h : Balanced w log) {pass : Pass} (hphase : w.phase = .visiting pass) :
    Balanced (w.endPass pass).1 (log ++ (w.endPass pass).2.map .effect) := by
  have hpruned : w.phase.pruned = pass.pruned := by rw [hphase]; rfl
  have hend := Worker.isPruned_endPass w pass
  have hidle : (w.endPass pass).1.phase.pruned = [] := by rw [Worker.endPass_phase]; rfl
  have hload : ∀ p, (w.endPass pass).1.index.load p = w.index.load p := by
    intro p
    rw [Worker.endPass_index, Worker.load_collected]
  have hopen := h.openConnections_eq
  rw [hpruned] at hopen
  refine
    { openConnections_eq := ?_
      channels_eq := hend.channels_eq h.channels_eq
      reports_eq := fun _ p => ?_
      tight := hend.index_eq ▸ Worker.tight_collected h.tight _
      mem_pruned_of_empty := fun place c hc he => ?_
      push_length := fun push c hp => ?_ }
  · have hgauge : (w.endPass pass).1.counters.openConnections =
        w.counters.openConnections - Worker.goneIn (fun _ => true) pass.pruned :=
      hend.openConnections_eq
    rw [hgauge, hidle, Worker.goneIn_nil, hload, hopen]
    omega
  · have hreports := h.reports_eq (by simp [hphase]) p
    rw [hpruned] at hreports
    rw [Worker.endPass_snd, openedIn_append, closedIn_append, openedIn_closings,
      closedIn_closings, hidle, Worker.goneIn_nil, hload]
    omega
  · -- an empty channel would be one of those that the end of the pass gave up
    exfalso
    rw [Worker.endPass_index, Worker.find?_collected] at hc
    split at hc
    · cases hc
    · next hnot =>
      have hmem := h.mem_pruned_of_empty place c hc he
      rw [hpruned] at hmem
      exact hnot ⟨hmem, by simp [hc, Channel.isEmpty, he]⟩
  · rw [Worker.endPass_phase] at hp
    cases hp

theorem serve (h : Balanced w log) {pass : Pass} {push : Push} {id : ConnectionId}
    {waiting : List ConnectionId} {out : Attempt} (hphase : w.phase = .pushing pass push)
    (hwaiting : push.waiting = id :: waiting) (hout : out ≠ .waiting) :
    Balanced
      { w with
        phase := .pushing pass { push with
          served := if out = .disconnected then push.served else push.served ++ [id]
          waiting
          tally := push.tally + out.tally } } log := by
  refine h.with_phase (by simp [hphase]) (by rw [hphase]; rfl) fun push' c hp hc => ?_
  cases hp
  have hlength := h.push_length push c (by rw [hphase]; rfl) hc
  rw [hwaiting, List.length_cons] at hlength
  have hgone : (push.tally + out.tally).disconnected =
      push.tally.disconnected + out.tally.disconnected := rfl
  rw [hgone, hlength]
  cases out with
  | waiting => exact absurd rfl hout
  | disconnected =>
    simp only [if_true, Attempt.tally]
    omega
  | sent =>
    simp only [Attempt.tally, reduceCtorEq, if_false, List.length_append, List.length_singleton]
    omega
  | dropped =>
    simp only [Attempt.tally, reduceCtorEq, if_false, List.length_append, List.length_singleton]
    omega

theorem endPush (h : Balanced w log) {pass : Pass} {push : Push} {c : Channel}
    (hphase : w.phase = .pushing pass push) (hwaiting : push.waiting = [])
    (hfind : w.index.find? push.place.1 push.place.2 = some c) :
    Balanced (w.endPush pass push).1 log := by
  have hpruned : w.phase.pruned = pass.pruned := by rw [hphase]; rfl
  have hlength := h.push_length push c (by rw [hphase]; rfl) hfind
  rw [hwaiting, List.length_nil, Nat.add_zero] at hlength
  have hopen := h.openConnections_eq
  have hreports := h.reports_eq (by simp [hphase])
  rw [hpruned] at hopen hreports
  have hload : ∀ p, (w.index.put push.place.1 push.place.2 { c with members := push.served }).load p
      + (if p push.place.1 then push.tally.disconnected else 0) = w.index.load p := by
    intro p
    rw [ChannelIndex.load_put, ChannelIndex.load_of_find? hfind]
    simp only [ChannelIndex.share, hlength]
    split <;> omega
  rw [Worker.endPush_of_find? hfind]
  refine
    { openConnections_eq := ?_
      channels_eq := h.channels_eq.trans (ChannelIndex.count_put_of_find? hfind _).symm
      reports_eq := fun _ p => ?_
      tight := h.tight.put push.place _
      mem_pruned_of_empty := fun place c' hc' he => ?_
      push_length := fun push' c' hp => ?_ }
  · have hgone := Worker.goneIn_passAfter (fun _ => true) pass push
    have hall := hload fun _ => true
    rw [if_pos rfl] at hgone hall
    refine hopen.trans ?_
    change _ = _ + Worker.goneIn _ (Worker.passAfter pass push).pruned
    rw [hgone, ← hall]
    simp only
    omega
  · change _ = _ + _ + Worker.goneIn p (Worker.passAfter pass push).pruned
    rw [Worker.goneIn_passAfter, hreports, ← hload p]
    simp only
    omega
  · have hc₀ := (ChannelIndex.find?_put ..).symm.trans hc'
    change place ∈ (Worker.passAfter pass push).pruned.map (·.1)
    rw [Worker.passAfter, List.map_append, List.mem_append]
    by_cases hp : place = push.place
    · rw [if_pos hp] at hc₀
      cases hc₀
      have hserved : push.served = [] := he
      rw [hserved, List.length_nil, Nat.zero_add] at hlength
      by_cases hgone : 0 < push.tally.disconnected
      · exact .inr (by simp [hgone, hp])
      · -- nobody was found gone, so the channel was empty before
        have hnil : c.members = [] := List.length_eq_zero_iff.1 (by omega)
        exact .inl (hpruned ▸ h.mem_pruned_of_empty place c (hp ▸ hfind) hnil)
    · rw [if_neg hp] at hc₀
      exact .inl (hpruned ▸ h.mem_pruned_of_empty place c' hc₀ he)
  · cases hp

/-! ### Every move -/

theorem turn {s : Stream} (h : Balanced s.worker log) (henrolled : Enrolled s log) {e : Engine}
    {next : Stream.Step} {events : List Event} (hturn : Stream.Turn e s next events) :
    Balanced next.stream.worker (log ++ events) := by
  cases hturn with
  | stop hclosed hattentive => exact stop ..
  | refuse hphase hqueue hchannel hout =>
    rw [List.append_nil]
    exact h.refuse (_, _) hphase hchannel
  | join hphase hqueue hchannel hattempt hout => exact h.join (_, _) hphase hchannel
  | ignore hphase hqueue hmember => exact h.append (fun _ => rfl) fun _ => rfl
  | depart hphase hqueue hfind hmember => exact h.depart (_, _) hphase hfind hmember
  | begin hphase hqueue hpoll =>
    rw [List.append_nil]
    exact h.with_phase (by simp [hphase]) (by rw [hphase]; rfl) fun push c hp => nomatch hp
  | pass hphase htodo hquiet =>
    rw [List.append_nil]
    exact h.with_phase (by simp [hphase]) (by rw [hphase]; rfl) fun push c hp => nomatch hp
  | produce hphase htodo hfind hrefresh =>
    exact (h.produce hphase hfind).append (fun _ => rfl) fun _ => rfl
  | endPass hphase htodo => exact h.endPass hphase
  | @serve pass push id waiting out hphase hwaiting hattempt hout =>
    obtain ⟨box, hbox⟩ := henrolled.exists_box (by rw [hphase]; rfl) hwaiting
    rw [hbox, Option.map_some, Option.toList_some]
    refine (h.serve hphase hwaiting hout).append (fun p => ?_) fun p => ?_
    · rw [openedIn_append, openedIn_trace]
      rfl
    · rw [closedIn_append, closedIn_trace]
      rfl
  | stall hphase hwaiting hout =>
    rw [List.append_nil]
    exact h.with_phase (by simp [hphase]) (by rw [hphase]; rfl)
      fun push c hp => h.push_length push c (by rw [hphase]; exact hp)
  | resume hphase hroom =>
    rw [List.append_nil]
    exact h.with_phase (by simp [hphase]) (by rw [hphase]; rfl)
      fun push c hp => h.push_length push c (by rw [hphase]; exact hp)
  | endPush hphase hwaiting =>
    obtain ⟨c, hfind⟩ := henrolled.find?_of_push? _ (by rw [hphase]; rfl)
    rw [Worker.endPush_snd]
    exact (h.endPush hphase hwaiting hfind).append (openedIn_report · ..) (closedIn_report · ..)

theorem move {s : Stream} (h : Balanced s.worker log) (henrolled : Enrolled s log) {s' : Stream}
    {events : List Event} (hmove : Stream.Move s s' events) :
    Balanced s'.worker (log ++ events) := by
  cases hmove with
  | still => exact h.append (fun _ => rfl) fun _ => rfl
  | connect hopen hroom hid => exact h.append (fun _ => rfl) fun _ => rfl
  | connectClosed hclosed hid => exact h.append (fun _ => rfl) fun _ => rfl
  | disconnect c hopen hroom => exact h.append (fun _ => rfl) fun _ => rfl
  | take hbox hmessages => exact h.append (fun _ => rfl) fun _ => rfl
  | leave number => exact h.append (fun _ => rfl) fun _ => rfl
  | close hopen => exact h.append (fun _ => rfl) fun _ => rfl
  | work hturn => exact h.turn henrolled hturn

end Balanced

/-- The books of a worker are balanced after every run. -/
theorem Run.balanced {s : Stream} {log : List Event} (h : Run s log) : Balanced s.worker log :=
  h.induct (P := fun s log => Balanced s.worker log) (fun _ _ _ _ _ _ => .idle)
    fun hrun ih hmove => ih.move hrun.enrolled hmove

end FlagFanout
