import FlagFanout.Proofs.Engine.Configuration
import FlagFanout.Proofs.Engine.Subscribers

/-!
# Signals wait until they are taken

A subscriber has room for one signal, so that many changes between two looks at its receiver become
one signal. An `Engine.Shared` is an engine that many use at once: calls come in any order, and one
that writes flags may be cut in two, with anything between the writing and the signal.

Whether a signal waits is told from what was done alone (`Engine.Shared.Since`): one waits exactly
if somebody published since the subscriber last took one (`Engine.Shared.exists_isLive_run`). What
was written was published, or will be (`Engine.Shared.Since.published`). The main statement is
`Engine.Shared.coalesces`, for a subscription taken at any moment.
-/

namespace FlagFanout

namespace Feed

variable {f : Feed}

theorem poll_fst_eq_signal_iff : f.poll.1 = .signal ↔ f.pending = true := by
  unfold poll
  split
  · next h => simp [h]
  · next h => split <;> simp [h]

theorem IsLive.poll_of_not_pending {who : Subscriber} (h : f.IsLive who)
    (hpending : ¬ f.pending = true) : f.poll = (.empty, f) := by
  rw [Feed.poll, if_neg hpending, if_pos h.subscribed]

theorem IsLive.taken {who : Subscriber} (h : f.IsLive who) :
    IsLive { f with pending := false } who :=
  ⟨h.subscriber_eq, h.subscribed, h.listening⟩

theorem IsLive.poll_ne_ended {who : Subscriber} (h : f.IsLive who) : f.poll.1 ≠ .ended := by
  intro hended
  rw [Feed.poll, if_pos h.subscribed] at hended
  split at hended <;> cases hended

end Feed

namespace Engine

/-- Where there is no flag to remove, nothing is done. -/
theorem removeFlag_of_flag?_eq_none (e : Engine) {key : String} (h : e.store.flag? key = none) :
    e.removeFlag key = (false, e) := by
  rw [removeFlag, FlagStore.hasFlag_eq_isSome, h]
  rfl

/-! ## Engines in use -/

/-- An engine in use. -/
structure Shared where
  engine : Engine
  /-- How many calls wrote flags and did not signal yet. -/
  unsignalled : Nat

namespace Shared

/-- What is done with an engine: a call as a whole, or one half of it. -/
inductive Act where
  | call (c : Call)
  /-- Flags are written, and the signal is still to come. -/
  | write (store : FlagStore)
  /-- The signal that was still to come. -/
  | signal

/-- Flags are written by an act. Removing a flag writes if there is one. -/
inductive Writes (e : Engine) : Act → Prop
  | replaceFlags (flags : List Flag) : Writes e (.call (.replaceFlags flags))
  | setFlag (f : Flag) : Writes e (.call (.setFlag f))
  | removeFlag {key : String} {f : Flag} (h : e.store.flag? key = some f) :
    Writes e (.call (.removeFlag key))
  | write (store : FlagStore) : Writes e (.write store)

/-- Subscribers are told of a change by an act. -/
inductive Publishes (e : Engine) : Act → Prop
  | call {c : Call} (h : Writes e (.call c)) : Publishes e (.call c)
  | publish : Publishes e (.call .publish)
  | signal : Publishes e .signal

/-- A signal is taken from a receiver by an act. -/
def Takes (receiver : Nat) (e : Engine) (a : Act) : Prop :=
  a = .call (.poll receiver) ∧ (e.poll receiver).1 = .signal

/-- An act leaves a subscription alone and its receiver in place. -/
def Act.Spares (who : Subscriber) (receiver : Nat) : Act → Prop
  | call (.subscribe who') => who' ≠ who
  | call (.unsubscribe who') => who' ≠ who
  | call (.dropReceiver receiver') => receiver' ≠ receiver
  | _ => True

theorem removeFlag_of_not_writes {e : Engine} {key : String}
    (h : ¬ Writes e (.call (.removeFlag key))) : e.removeFlag key = (false, e) :=
  e.removeFlag_of_flag?_eq_none <|
    Option.eq_none_iff_forall_ne_some.2 fun _ hf => h (.removeFlag hf)

/-- The engine after an act. -/
def act (s : Shared) : Act → Shared
  | .call c => { s with engine := s.engine.call c }
  | .write store => ⟨{ s.engine with store }, s.unsignalled + 1⟩
  | .signal => ⟨s.engine.publish, s.unsignalled - 1⟩

/-- The engine after some acts. -/
def run (s : Shared) (acts : List Act) : Shared := acts.foldl act s

variable {s : Shared} {a : Act} {acts : List Act} {who : Subscriber} {receiver : Nat} {f : Feed}

theorem run_concat : s.run (acts ++ [a]) = (s.run acts).act a := by
  simp [run]

/-! ## What one act does -/

theorem store_act_of_not_writes (h : ¬ Writes s.engine a) :
    (s.act a).engine.store = s.engine.store := by
  cases a with
  | write store => exact absurd (.write store) h
  | signal => rfl
  | call c =>
    cases c with
    | replaceFlags flags => exact absurd (.replaceFlags flags) h
    | setFlag flag => exact absurd (.setFlag flag) h
    | removeFlag key =>
      change (s.engine.removeFlag key).2.store = _
      rw [removeFlag_of_not_writes h]
    | publish | subscribe | unsubscribe | poll | dropReceiver => rfl

theorem signals_act_of_publishes (h : Publishes s.engine a) :
    (s.act a).engine.signals = s.engine.signals.publish := by
  cases h with
  | publish | signal => rfl
  | call h =>
    cases h with
    | replaceFlags | setFlag => rfl
    | removeFlag h =>
      change (s.engine.removeFlag _).2.signals = _
      rw [removeFlag, FlagStore.hasFlag_eq_isSome, h]
      rfl

theorem feed?_act_of_takes (hf : s.engine.signals.feed? receiver = some f)
    (h : Takes receiver s.engine a) :
    (s.act a).engine.signals.feed? receiver = some { f with pending := false } := by
  obtain ⟨rfl, hfound⟩ := h
  have hpending : f.pending = true :=
    Feed.poll_fst_eq_signal_iff.1 ((Signals.poll_fst_of_feed? _ _ hf).symm.trans hfound)
  change (s.engine.signals.poll receiver).2.feed? receiver = _
  rw [Signals.feed?_poll, if_pos rfl, hf, Option.map_some, Feed.poll_of_pending hpending]

/-- Whatever else is done leaves the subscription as it was. -/
theorem feed?_act_of_spares (hf : s.engine.signals.feed? receiver = some f) (hlive : f.IsLive who)
    (hspares : a.Spares who receiver) (hpublishes : ¬ Publishes s.engine a)
    (htakes : ¬ Takes receiver s.engine a) :
    (s.act a).engine.signals.feed? receiver = some f := by
  have hothers : ∀ who', who' ≠ who →
      (s.engine.signals.unsubscribe who').feed? receiver = some f := by
    intro who' hne
    rw [Signals.feed?_unsubscribe, hf, Option.map_some, if_neg (hlive.subscriber_eq ▸ hne.symm)]
  cases a with
  | write store => exact hf
  | signal => exact absurd .signal hpublishes
  | call c =>
    cases c with
    | replaceFlags flags => exact absurd (.call (.replaceFlags flags)) hpublishes
    | setFlag flag => exact absurd (.call (.setFlag flag)) hpublishes
    | removeFlag key =>
      change (s.engine.removeFlag key).2.signals.feed? receiver = _
      rw [removeFlag_of_not_writes fun h => hpublishes (.call h)]
      exact hf
    | publish => exact absurd .publish hpublishes
    | subscribe who' =>
      exact (Signals.feed?_subscribe_of_lt _ _ _ (Signals.lt_of_feed? hf)).trans
        (hothers who' hspares)
    | unsubscribe who' => exact hothers who' hspares
    | poll receiver' =>
      change (s.engine.signals.poll receiver').2.feed? receiver = _
      rw [Signals.feed?_poll]
      split
      · next heq =>
        subst heq
        have hempty : ¬ f.pending = true := fun hpending => htakes
          ⟨rfl, (Signals.poll_fst_of_feed? _ _ hf).trans (Feed.poll_fst_eq_signal_iff.2 hpending)⟩
        rw [hf, Option.map_some, hlive.poll_of_not_pending hempty]
      · exact hf
    | dropReceiver receiver' =>
      exact (Signals.feed?_dropReceiver_of_ne _ _ _ (Ne.symm hspares)).trans hf

/-! ## What many acts do -/

/-- Among some acts is one of a kind after which there is none of another kind. -/
inductive Since (P Q : Engine → Act → Prop) (s : Shared) : List Act → Prop
  | now {acts : List Act} {a : Act} (h : P (s.run acts).engine a) : Since P Q s (acts ++ [a])
  | still {acts : List Act} {a : Act} (h : Since P Q s acts) (hnot : ¬ Q (s.run acts).engine a) :
    Since P Q s (acts ++ [a])

section Since

variable {P Q : Engine → Act → Prop}

theorem not_since_nil : ¬ Since P Q s [] := by
  intro h
  generalize hnil : ([] : List Act) = acts at h
  cases h <;> exact List.append_ne_nil_of_right_ne_nil _ (List.cons_ne_nil _ _) hnil.symm

theorem since_concat_iff : Since P Q s (acts ++ [a]) ↔
    P (s.run acts).engine a ∨ Since P Q s acts ∧ ¬ Q (s.run acts).engine a := by
  constructor
  · intro h
    generalize hconcat : acts ++ [a] = acts' at h
    cases h with
    | now h =>
      obtain ⟨rfl, rfl⟩ := List.append_singleton_inj.1 hconcat
      exact .inl h
    | still h hnot =>
      obtain ⟨rfl, rfl⟩ := List.append_singleton_inj.1 hconcat
      exact .inr ⟨h, hnot⟩
  · rintro (h | ⟨h, hnot⟩)
    · exact .now h
    · exact .still h hnot

end Since

/-- What was written is published, unless it is still to be. -/
theorem Since.published {Q : Engine → Act → Prop} (h : Since Writes Q s acts) :
    0 < (s.run acts).unsignalled ∨ Since Publishes Q s acts := by
  induction h with
  | @now acts a h =>
    rw [run_concat]
    cases h with
    | write store => exact .inl (Nat.succ_pos _)
    | replaceFlags flags => exact .inr (.now (.call (.replaceFlags flags)))
    | setFlag flag => exact .inr (.now (.call (.setFlag flag)))
    | removeFlag h => exact .inr (.now (.call (.removeFlag h)))
  | @still acts a _ hnot ih =>
    rcases ih with hunsignalled | hpublished
    · cases a with
      | signal => exact .inr (.now .signal)
      | write store => exact .inl (run_concat ▸ Nat.succ_pos _)
      | call c => exact .inl (run_concat ▸ hunsignalled)
    · exact .inr (.still hpublished hnot)

/-- **A subscription lives until its owner ends it, and a signal waits exactly if somebody published
since the last one was taken.** -/
theorem exists_isLive_run (hf : s.engine.signals.feed? receiver = some f) (hlive : f.IsLive who)
    (hpending : f.pending = false) (hspares : ∀ a ∈ acts, a.Spares who receiver) :
    ∃ f', (s.run acts).engine.signals.feed? receiver = some f' ∧ f'.IsLive who ∧
      (f'.pending = true ↔ Since Publishes (Takes receiver) s acts) := by
  induction acts using List.reverseRecOn with
  | nil => exact ⟨f, hf, hlive, by simp [hpending, not_since_nil]⟩
  | append_singleton acts a ih =>
    obtain ⟨f', hf', hlive', hiff⟩ := ih fun b hb => hspares b (List.mem_append_left _ hb)
    rw [run_concat, since_concat_iff, ← hiff]
    by_cases hpublishes : Publishes (s.run acts).engine a
    · refine ⟨f'.notify, ?_, hlive'.notify, ?_⟩
      · rw [signals_act_of_publishes hpublishes, Signals.feed?_publish, hf', Option.map_some]
      · simp [hlive'.notify_eq, hpublishes]
    · by_cases htakes : Takes receiver (s.run acts).engine a
      · exact ⟨_, feed?_act_of_takes hf' htakes, hlive'.taken, by simp [hpublishes, htakes]⟩
      · have hspared := hspares a (List.mem_append_right _ List.mem_cons_self)
        exact ⟨f', feed?_act_of_spares hf' hlive' hspared hpublishes htakes, hlive',
          by simp [hpublishes, htakes]⟩

/-! ## Coalescing -/

/-- What a subscriber finds at its receiver after some acts. -/
structure Coalesces (s : Shared) (who : Subscriber) (receiver : Nat) (acts : List Act) :
    Prop where
  mem_subscribers : who ∈ (s.run acts).engine.signals.subscribers
  /-- A signal is there if somebody published since the last one was taken, and else nothing. -/
  poll_eq_signal_iff : ((s.run acts).engine.poll receiver).1 = .signal ↔
    Since Publishes (Takes receiver) s acts
  poll_ne_ended : ((s.run acts).engine.poll receiver).1 ≠ .ended
  /-- No second signal is behind the first one. -/
  poll_poll : ((s.run acts).engine.poll receiver).1 = .signal →
    (((s.run acts).engine.poll receiver).2.poll receiver).1 = .empty
  /-- Nothing that was written since is lost, when every call came to its end. -/
  poll_of_written : Since Writes (Takes receiver) s acts → (s.run acts).unsignalled = 0 →
    ((s.run acts).engine.poll receiver).1 = .signal
  /-- What does not write leaves the flags as they are. -/
  store_act : ∀ a, ¬ Writes (s.run acts).engine a →
    ((s.run acts).act a).engine.store = (s.run acts).engine.store
  /-- To remove a flag that is not there is to do nothing. -/
  removeFlag_eq : ∀ key, (s.run acts).engine.store.flag? key = none →
    (s.run acts).engine.removeFlag key = (false, (s.run acts).engine)
  /-- Whoever publishes leaves nobody whose receiver is gone. -/
  allListen : ∀ a, Publishes (s.run acts).engine a →
    ((s.run acts).act a).engine.signals.AllListen

/-- **Signals coalesce without loss**, for a subscription that was taken at any moment and whose
owner neither ended it nor dropped the receiver since. -/
theorem coalesces (s : Shared) (who : Subscriber) (acts : List Act)
    (hspares : ∀ a ∈ acts, a.Spares who s.engine.signals.nextReceiver) :
    Coalesces (s.act (.call (.subscribe who))) who s.engine.signals.nextReceiver acts := by
  set receiver := s.engine.signals.nextReceiver
  set t := s.act (.call (.subscribe who))
  have hnew : t.engine.signals.feed? receiver = some ⟨who, true, true, false⟩ :=
    Signals.feed?_subscribe_self ..
  obtain ⟨f, hf, hlive, hiff⟩ := exists_isLive_run hnew ⟨rfl, rfl, rfl⟩ rfl hspares
  set e := (t.run acts).engine
  have hpoll : (e.poll receiver).1 = f.poll.1 := Signals.poll_fst_of_feed? _ _ hf
  have hsignal : (e.poll receiver).1 = .signal ↔ Since Publishes (Takes receiver) t acts := by
    rw [hpoll, Feed.poll_fst_eq_signal_iff, hiff]
  refine
    { mem_subscribers := ?_
      poll_eq_signal_iff := hsignal
      poll_ne_ended := fun hended => ?_
      poll_poll := fun hfound => ?_
      poll_of_written := fun hwritten hdone => ?_
      store_act := fun _ => store_act_of_not_writes
      removeFlag_eq := fun key => removeFlag_of_flag?_eq_none e
      allListen := fun a h => signals_act_of_publishes h ▸ Signals.allListen_publish _ }
  · rw [Signals.mem_subscribers_iff]
    exact ⟨f, List.mem_of_getElem? hf, hlive.subscriber_eq, hlive.subscribed⟩
  · rw [hpoll] at hended
    exact hlive.poll_ne_ended hended
  · have htaken : (e.poll receiver).2.signals.feed? receiver = some { f with pending := false } :=
      feed?_act_of_takes hf ⟨rfl, hfound⟩
    exact (Signals.poll_fst_of_feed? _ _ htaken).trans
      (congrArg Prod.fst (hlive.taken.poll_of_not_pending Bool.false_ne_true))
  · rcases hwritten.published with hunsignalled | hpublished
    · exact absurd hdone (Nat.ne_of_gt hunsignalled)
    · exact hsignal.2 hpublished

/-- A flag is written twice: the first change is taken, and while the second one is still to be
signalled somebody else comes and loses the receiver. -/
theorem coalesces_of_interleaved :
    ∃ (s : Shared) (who : Subscriber) (acts : List Act),
      (∀ a ∈ acts, a.Spares who s.engine.signals.nextReceiver) ∧
      Since Writes (Takes s.engine.signals.nextReceiver) (s.act (.call (.subscribe who))) acts ∧
      ((s.act (.call (.subscribe who))).run acts).unsignalled = 0 ∧
      Coalesces (s.act (.call (.subscribe who))) who s.engine.signals.nextReceiver acts := by
  let s : Shared := ⟨.ofStore .unconfigured, 0⟩
  let acts : List Act := [.call (.setFlag (.constant "x" (.int 0))), .call (.poll 0)] ++
    [.write (.ofFlags [.constant "x" (.int 1)])] ++ [.call (.subscribe (.client "b"))] ++
    [.call (.dropReceiver 1)] ++ [.signal]
  have hspares : ∀ a ∈ acts, a.Spares (.client "a") s.engine.signals.nextReceiver := by
    have hreceiver : s.engine.signals.nextReceiver = 0 := rfl
    simp [acts, Act.Spares, hreceiver]
  have hwritten : Since Writes (Takes 0) (s.act (.call (.subscribe (.client "a")))) acts :=
    .still (.still (.still (.now (.write _)) nofun) nofun) nofun
  exact ⟨s, .client "a", acts, hspares, hwritten, rfl, coalesces s _ acts hspares⟩

end Shared

end Engine

end FlagFanout
