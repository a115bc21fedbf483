import FlagFanout.Proofs.Stream.Refresh
import FlagFanout.Proofs.Stream.Worker
import Mathlib.Logic.Relation

/-!
# What a notification says to a channel

A pass that comes to a channel compares what the channel last delivered with what the engine
evaluates now. `Snapshot.IsDifference` says, key by key and without looking at how the comparison is
made, what is to be pushed and what is to be stored: the evaluations whose value is not the stored
one (`Evaluation.IsNew`), and nothing else.

The main statement is `Worker.notifies`: at every channel the worker pushes and stores exactly that,
and a second notification with the same evaluations pushes nothing and changes nothing.
-/

namespace FlagFanout

/-! ## New values -/

/-- No value is stored, or one that differs. -/
def Evaluation.IsNew (e : Evaluation) (stored : Option Payload) : Prop :=
  ∀ p v, stored = some p → p.value = some v → (v == e.value) = false

theorem Evaluation.isNew_iff {e : Evaluation} {stored : Option Payload} :
    e.IsNew stored ↔ stored.any (·.hasSameValue e) = false := by
  simp only [IsNew, Option.any_eq_false, Payload.hasSameValue]
  exact ⟨fun h p hp v hv => h p v hp hv, fun h p v hp hv => h p hp v hv⟩

/-- No flag evaluates to a value that is not a number. -/
structure Evaluator.NeverNaN (ev : Evaluator) (context : Option Context) : Prop where
  evaluate : ∀ key e, ev.evaluate key context = .ok e → e.value.isNaN = false
  evaluateAll : ∀ key e, (ev.evaluateAll context).get? key = some (.ok e) → e.value.isNaN = false

/-! ## Differences -/

namespace Snapshot

/-- What becomes of the payload of a single flag, and what is pushed. -/
structure IsFlagDifference (ev : Evaluator) (context : Option Context) (key : String) (p : Payload)
    (new : Snapshot) (pushed : Option Message) : Prop where
  pushed_iff : pushed.isSome = true ↔
    ∃ e, ev.evaluate key context = .ok e ∧ e.IsNew (some p)
  of_pushed : ∀ m, pushed = some m → ∃ e, ev.evaluate key context = .ok e ∧
    m = .flag ⟨some e.value, e.variation⟩ ∧ new = .flag key ⟨some e.value, e.variation⟩
  of_quiet : pushed = none → new = .flag key p

/-- What becomes of the payloads of all flags, and what is pushed. -/
structure IsFlagsDifference (ev : Evaluator) (context : Option Context)
    (last : KeyMap String Payload) (new : Snapshot) (pushed : Option Message) : Prop where
  pushed_iff : pushed.isSome = true ↔
    ∃ key e, (ev.evaluateAll context).get? key = some (.ok e) ∧ e.IsNew (last.get? key)
  of_pushed : ∀ m, pushed = some m → ∃ changed, m = .flags changed ∧
    (∀ key q, changed.get? key = some q ↔
      ∃ e, (ev.evaluateAll context).get? key = some (.ok e) ∧ e.IsNew (last.get? key) ∧
        q = ⟨some e.value, e.variation⟩) ∧
    new = .flags (last.overlay changed)
  of_quiet : pushed = none → new = .flags last
  /-- A key that fails, is gone or has the stored value keeps its payload, with its variation. -/
  kept : ∃ stored, new = .flags stored ∧ ∀ key,
    (∀ e, (ev.evaluateAll context).get? key = some (.ok e) → ¬ e.IsNew (last.get? key)) →
      stored.get? key = last.get? key

/-- What a notification is to store in place of a snapshot, and what it is to push. -/
def IsDifference (ev : Evaluator) (context : Option Context) :
    Snapshot → Snapshot → Option Message → Prop
  | flag key p => IsFlagDifference ev context key p
  | flags last => IsFlagsDifference ev context last

theorem moved?_eq_some_iff {old : Option Payload} {result : Option (Except FlagError Evaluation)}
    {q : Payload} :
    moved? old result = some q ↔
      ∃ e, result = some (.ok e) ∧ e.IsNew old ∧ q = .ofEvaluation e := by
  constructor
  · intro h
    obtain ⟨e, hresult, hq, hold⟩ := moved?_eq_some h
    exact ⟨e, hresult, Evaluation.isNew_iff.2 hold, hq⟩
  · rintro ⟨e, rfl, hnew, rfl⟩
    rw [moved?, if_neg (by simp [Evaluation.isNew_iff.1 hnew])]

theorem isFlagDifference_refresh (ev : Evaluator) (context : Option Context) (key : String)
    (p : Payload) :
    IsFlagDifference ev context key p ((flag key p).refresh ev context).1
      ((flag key p).refresh ev context).2 := by
  cases heval : ev.evaluate key context with
  | error err =>
    simp only [refresh, heval]
    refine ⟨by simp [heval], fun m h => ?_, fun _ => rfl⟩
    cases h
  | ok e =>
    have hnew : (∃ e', ev.evaluate key context = .ok e' ∧ e'.IsNew (some p)) ↔
        p.hasSameValue e = false := by
      simp [heval, Evaluation.isNew_iff]
    cases hsame : p.hasSameValue e with
    | true =>
      simp only [refresh, heval, hsame, if_true]
      refine ⟨by rw [hnew, hsame]; simp, fun m h => ?_, fun _ => rfl⟩
      cases h
    | false =>
      simp only [refresh, heval, hsame, Bool.false_eq_true, if_false]
      refine ⟨by rw [hnew, hsame]; simp, fun m h => ?_, fun h => ?_⟩
      · cases h
        exact ⟨e, heval, rfl, rfl⟩
      · cases h

theorem isFlagsDifference_refresh (ev : Evaluator) (context : Option Context)
    (last : KeyMap String Payload) :
    IsFlagsDifference ev context last ((flags last).refresh ev context).1
      ((flags last).refresh ev context).2 := by
  set changed := (scan last (ev.evaluateAll context).toList).changed with hchanged
  have hmoved : ∀ key q, changed.get? key = some q ↔
      ∃ e, (ev.evaluateAll context).get? key = some (.ok e) ∧ e.IsNew (last.get? key) ∧
        q = ⟨some e.value, e.variation⟩ := by
    intro key q
    rw [hchanged, get?_changed_scan, moved?_eq_some_iff]
    rfl
  have hempty : changed.isEmpty = false ↔
      ∃ key e, (ev.evaluateAll context).get? key = some (.ok e) ∧ e.IsNew (last.get? key) := by
    rw [← Bool.not_eq_true, KeyMap.isEmpty_iff, not_forall]
    refine exists_congr fun key => ?_
    rw [← ne_eq, Option.ne_none_iff_exists']
    constructor
    · rintro ⟨q, hq⟩
      obtain ⟨e, heval, hnew, -⟩ := (hmoved key q).1 hq
      exact ⟨e, heval, hnew⟩
    · rintro ⟨e, heval, hnew⟩
      exact ⟨_, (hmoved key _).2 ⟨e, heval, hnew, rfl⟩⟩
  have hrefresh : (flags last).refresh ev context =
      (flags (last.overlay changed), if changed.isEmpty then none else some (.flags changed)) := by
    rw [hchanged, ← last_scan]
    rfl
  rw [hrefresh]
  refine
    { pushed_iff := ?_
      of_pushed := fun m h => ?_
      of_quiet := fun h => ?_
      kept := ⟨_, rfl, fun key hstill => ?_⟩ }
  · rw [← hempty]
    cases changed.isEmpty <;> simp
  · split at h
    · cases h
    · exact ⟨changed, (Option.some.inj h).symm, hmoved, rfl⟩
  · split at h
    · next hnone =>
      refine congrArg flags (KeyMap.ext_get? fun key => ?_)
      rw [KeyMap.get?_overlay, KeyMap.isEmpty_iff.1 hnone key, Option.none_or]
    · cases h
  · have hnone : changed.get? key = none := by
      rw [Option.eq_none_iff_forall_ne_some]
      intro q hq
      obtain ⟨e, heval, hnew, -⟩ := (hmoved key q).1 hq
      exact hstill e heval hnew
    rw [KeyMap.get?_overlay, hnone, Option.none_or]

/-- **A refresh finds the exact difference.** -/
theorem isDifference_refresh (ev : Evaluator) (context : Option Context) (old : Snapshot) :
    old.IsDifference ev context (old.refresh ev context).1 (old.refresh ev context).2 := by
  cases old with
  | flag key p => exact isFlagDifference_refresh ev context key p
  | flags last => exact isFlagsDifference_refresh ev context last

/-- Nothing is pushed where the stored values are those of the engine. -/
theorem refresh_of_isCurrent {ev : Evaluator} {context : Option Context} {old : Snapshot}
    (hnan : ev.NeverNaN context) (h : old.IsCurrent ev context) :
    old.refresh ev context = (old, none) := by
  suffices hquiet : (old.refresh ev context).2 = none from
    Prod.ext (refresh_eq_none hquiet) hquiet
  have hdifference := isDifference_refresh ev context old
  rw [← Option.not_isSome_iff_eq_none]
  cases old with
  | flag key p =>
    rw [hdifference.pushed_iff]
    rintro ⟨e, heval, hnew⟩
    have hsame := h e heval (hnan.evaluate key e heval)
    rw [Evaluation.isNew_iff, Option.any_some, hsame] at hnew
    cases hnew
  | flags last =>
    rw [hdifference.pushed_iff]
    rintro ⟨key, e, heval, hnew⟩
    obtain ⟨p, hp, hsame⟩ := h key e heval (hnan.evaluateAll key e heval)
    rw [hp, Evaluation.isNew_iff, Option.any_some, hsame] at hnew
    cases hnew

/-- A second refresh finds nothing. -/
theorem refresh_refresh {ev : Evaluator} {context : Option Context} (hnan : ev.NeverNaN context)
    (old : Snapshot) :
    (old.refresh ev context).1.refresh ev context = ((old.refresh ev context).1, none) :=
  refresh_of_isCurrent hnan (isCurrent_refresh ev context old)

end Snapshot

/-! ## Notifications -/

namespace Worker

/-- One step of a push, whatever happened to the mailboxes since the last one. -/
def PushStep (w w' : Worker) : Prop :=
  w.phase.push?.isSome = true ∧
    ∃ policy ev boxes r, w.passStep? policy ev boxes = some r ∧ r.worker = w'

/-- The end of a push leaves of every channel what it last delivered, and its context. -/
theorem exists_find?_endPush {w : Worker} (pass : Pass) (push : Push) {place : Place}
    {last : Snapshot} {context : Option Context} {members : List ConnectionId}
    (hfind : w.index.find? place.1 place.2 = some ⟨last, context, members⟩) :
    ∃ members', (w.endPush pass push).1.index.find? place.1 place.2 =
      some ⟨last, context, members'⟩ := by
  cases hplace : w.index.find? push.place.1 push.place.2 with
  | none =>
    rw [endPush_of_find?_eq_none hplace]
    exact ⟨members, hfind⟩
  | some c =>
    rw [endPush_of_find? hplace, ChannelIndex.find?_put]
    split
    · next heq =>
      rw [heq, hplace] at hfind
      cases hfind
      exact ⟨push.served, rfl⟩
    · exact ⟨members, hfind⟩

theorem deliver_index (w : Worker) (policy : DeliveryPolicy) (boxes : Mailboxes) (pass : Pass)
    (push : Push) (id : ConnectionId) (rest : List ConnectionId) :
    (w.deliver policy boxes pass push id rest).worker.index = w.index := by
  unfold deliver
  simp only
  split <;> rfl

/-- A step of a push leaves of every channel what it last delivered, and its context. -/
theorem PushStep.exists_find? {w w' : Worker} (h : w.PushStep w') {place : Place} {last : Snapshot}
    {context : Option Context} {members : List ConnectionId}
    (hfind : w.index.find? place.1 place.2 = some ⟨last, context, members⟩) :
    ∃ members', w'.index.find? place.1 place.2 = some ⟨last, context, members'⟩ := by
  obtain ⟨hpush, policy, ev, boxes, r, hstep, rfl⟩ := h
  unfold passStep? at hstep
  cases hphase : w.phase with
  | idle | visiting | stopped =>
    rw [hphase] at hpush
    cases hpush
  | stalled pass push =>
    simp only [hphase] at hstep
    split at hstep
    · cases hstep
      exact ⟨members, hfind⟩
    · cases hstep
  | pushing pass push =>
    simp only [hphase] at hstep
    split at hstep
    · cases hstep
      exact exists_find?_endPush pass push hfind
    · cases hstep
      rw [deliver_index]
      exact ⟨members, hfind⟩

/-- The worker comes to a channel in a pass: what is stored there from then on, and what is
pushed. -/
structure Notifies (w : Worker) (ev : Evaluator) (pass : Pass) (place : Place) (c : Channel)
    (last : Snapshot) (pushed : Option Message) : Prop where
  isDifference : c.last.IsDifference ev c.context last pushed
  /-- Where nothing moved the worker goes on to the next channel. -/
  of_quiet : pushed = none → w.visit ev pass place = { w with phase := .visiting pass }
  /-- What moved is stored, and pushed to all members. -/
  of_pushed : ∀ m, pushed = some m → w.visit ev pass place =
    { w with
      index := w.index.put place.1 place.2 { c with last }
      phase := .pushing pass ⟨place, m, [], c.members, .zero⟩ }
  /-- Only the members of the channel can change while the message is pushed. -/
  stored : ∀ w', Relation.ReflTransGen PushStep (w.visit ev pass place) w' →
    ∃ members, w'.index.find? place.1 place.2 = some ⟨last, c.context, members⟩
  /-- A second notification pushes nothing and changes nothing. -/
  again : ev.NeverNaN c.context → ∀ (w' : Worker) pass' members,
    w'.index.find? place.1 place.2 = some ⟨last, c.context, members⟩ →
      w'.visit ev pass' place = { w' with phase := .visiting pass' }

/-- **A notification tells a channel exactly what moved**, and tells it once. -/
theorem notifies {w : Worker} {place : Place} {c : Channel}
    (hfind : w.index.find? place.1 place.2 = some c) (ev : Evaluator) (pass : Pass) :
    w.Notifies ev pass place c (c.last.refresh ev c.context).1
      (c.last.refresh ev c.context).2 := by
  have hquiet : ∀ {w' : Worker} {c' : Channel} {pass' : Pass},
      w'.index.find? place.1 place.2 = some c' → (c'.last.refresh ev c'.context).2 = none →
        w'.visit ev pass' place = { w' with phase := .visiting pass' } := by
    intro w' c' pass' hfind' hnone
    rcases visit_cases w' ev pass' place with ⟨hvisit, -⟩ | ⟨c₀, last, m, hfind₀, hrefresh, -⟩
    · exact hvisit
    · rw [hfind'] at hfind₀
      cases hfind₀
      rw [hrefresh] at hnone
      cases hnone
  have hpushed : ∀ m, (c.last.refresh ev c.context).2 = some m → w.visit ev pass place =
      { w with
        index := w.index.put place.1 place.2 { c with last := (c.last.refresh ev c.context).1 }
        phase := .pushing pass ⟨place, m, [], c.members, .zero⟩ } := by
    intro m hm
    rcases visit_cases w ev pass place with ⟨-, hnone⟩ | ⟨c₀, last, m', hfind₀, hrefresh, hvisit⟩
    · rw [hnone c hfind] at hm
      cases hm
    · rw [hfind] at hfind₀
      cases hfind₀
      rw [hrefresh] at hm ⊢
      cases hm
      exact hvisit
  refine
    { isDifference := Snapshot.isDifference_refresh ev c.context c.last
      of_quiet := hquiet hfind
      of_pushed := hpushed
      stored := fun w' hsteps => ?_
      again := fun hnan w' pass' members hfind' => ?_ }
  · induction hsteps with
    | tail _ hstep ih =>
      obtain ⟨members, hfind'⟩ := ih
      exact hstep.exists_find? hfind'
    | refl =>
      cases hm : (c.last.refresh ev c.context).2 with
      | none =>
        rw [hquiet hfind hm, Snapshot.refresh_eq_none hm]
        exact ⟨c.members, hfind⟩
      | some m =>
        rw [hpushed m hm]
        exact ⟨c.members, ChannelIndex.find?_put_self ..⟩
  · refine hquiet hfind' ?_
    rw [Snapshot.refresh_refresh hnan]

/-- A channel for all flags, where one flag has another variation, one fails, one is gone, one has
another value and one is new. -/
theorem notifies_of_mixed_results :
    ∃ (w : Worker) (c : Channel) (ev : Evaluator) (pass : Pass) (last : Snapshot)
      (changed : KeyMap String Payload),
      w.index.find? .all 0 = some c ∧
      c.last = .flags (.ofList [("a", ⟨some (.bool true), "u"⟩), ("b", ⟨some (.bool true), "u"⟩),
        ("c", ⟨some (.bool true), "u"⟩), ("d", ⟨some (.bool true), "u"⟩)]) ∧
      changed = .ofList [("d", ⟨some (.bool false), "v"⟩), ("e", ⟨some (.bool true), "v"⟩)] ∧
      ev.NeverNaN c.context ∧ w.Notifies ev pass (.all, 0) c last (some (.flags changed)) := by
  let results : KeyMap String (Except FlagError Evaluation) :=
    .ofList [("a", .ok ⟨.bool true, "v"⟩), ("b", .error .notReady), ("d", .ok ⟨.bool false, "v"⟩),
      ("e", .ok ⟨.bool true, "v"⟩)]
  let ev : Evaluator := ⟨fun _ _ => .error .notReady, fun _ => results⟩
  let c : Channel := ⟨.flags (.ofList [("a", ⟨some (.bool true), "u"⟩),
    ("b", ⟨some (.bool true), "u"⟩), ("c", ⟨some (.bool true), "u"⟩),
    ("d", ⟨some (.bool true), "u"⟩)]), none, []⟩
  let w : Worker := { Worker.idle with index := ChannelIndex.empty.put .all 0 c }
  have hnan : ev.NeverNaN c.context := by
    refine ⟨fun key e h => (nomatch h), fun key e h => ?_⟩
    have hall : ∀ r ∈ results.entries, r.2.toOption.any (·.value.isNaN) = false := by decide
    exact hall (key, .ok e) (KeyMap.get?_eq_some_iff_mem.1 h)
  let place : Place := (.all, 0)
  have hfind : w.index.find? place.1 place.2 = some c := by rfl
  exact ⟨w, c, ev, ⟨[], .zero, []⟩, _, _, hfind, rfl, rfl, hnan, notifies hfind ev _⟩

end Worker

end FlagFanout
