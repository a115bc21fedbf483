import FlagFanout.Proofs.KeyMap
import FlagFanout.Stream.Channel
import Mathlib.Tactic.ByContra

/-!
# What a refresh pushes

A client keeps the state of its channel by laying every message on what it has: the payload of a
single flag replaces the last one, the payloads of several flags are laid over the map by key
(`Message.lay`). A refresh keeps its side of that: the message it pushes, laid on the old state,
gives the new one, and it says nothing but what is new (`Snapshot.refresh_eq_some`). Without a
message the state is the old one (`Snapshot.refresh_eq_none`), and either way it agrees afterwards
with the evaluation (`Snapshot.isCurrent_refresh`).

Values are compared with `==`, for which a NaN differs from itself; only for the last statement
does that matter.
-/

namespace FlagFanout

/-! ## Messages as changes -/

/-- A payload with a value, which differs from that of another payload if that has one. -/
def Payload.DiffersFrom (q p : Payload) : Prop :=
  ∃ v, q.value = some v ∧ p.value.any (· == v) = false

namespace Message

/-- A message laid on the state of a channel. -/
def lay : Message → Message → Message
  | flags base, flags top => flags (base.overlay top)
  | flag _, m => m
  | flags _, flag p => flag p

/-- A message says something new of a state, and nothing else: the payload of a single flag differs
in value, the payloads of several flags are not none and each is new or differs in value. -/
def Renews : Message → Message → Prop
  | flag q, flag p => q.DiffersFrom p
  | flags top, flags base => top.isEmpty = false ∧
      ∀ key q, top.get? key = some q → ∀ p, base.get? key = some p → q.DiffersFrom p
  | flag _, flags _ => False
  | flags _, flag _ => False

end Message

/-! ## Scans -/

namespace Snapshot

/-- What a scan finds at a key: a payload if a value is new or differs from the last one. -/
def moved? (last : Option Payload) (result : Option (Except FlagError Evaluation)) :
    Option Payload :=
  match result with
  | some (.ok e) => if last.any (·.hasSameValue e) then none else some (.ofEvaluation e)
  | some (.error _) => none
  | none => none

theorem scanKey_eq (s : Scan) (key : String) (result : Except FlagError Evaluation) :
    scanKey s key result =
      match moved? (s.last.get? key) (some result) with
      | some p => ⟨s.last.insert key p, s.changed.insert key p⟩
      | none => s := by
  cases result with
  | error err => rfl
  | ok e =>
    simp only [scanKey, moved?]
    split <;> rfl

/-- A scan stores what moved at each key, and lists it among the changes. -/
theorem get?_foldl_scanKey {results : List (String × Except FlagError Evaluation)}
    (hkeys : results.Pairwise fun e f => e.1 ≠ f.1) (s : Scan) (key : String) :
    let s' := results.foldl (fun s r => scanKey s r.1 r.2) s
    let found := moved? (s.last.get? key) (KeyMap.lookup key results)
    s'.last.get? key = found.or (s.last.get? key) ∧
      s'.changed.get? key = found.or (s.changed.get? key) := by
  induction results generalizing s with
  | nil => exact ⟨rfl, rfl⟩
  | cons r rest ih =>
    obtain ⟨hr, hrest⟩ := List.pairwise_cons.1 hkeys
    obtain ⟨hlast, hchanged⟩ := ih hrest (scanKey s r.1 r.2)
    simp only [List.foldl_cons, KeyMap.lookup]
    rw [hlast, hchanged, scanKey_eq]
    by_cases hk : key = r.1
    · -- the rest of the results has nothing more for this key
      have hnone : KeyMap.lookup key rest = none := by
        rw [Option.eq_none_iff_forall_ne_some]
        intro a ha
        exact hr (key, a) ((KeyMap.lookup_eq_some_iff_mem hrest).1 ha) hk.symm
      rw [hnone, if_pos hk, hk]
      cases moved? (s.last.get? r.1) (some r.2) with
      | none => exact ⟨rfl, rfl⟩
      | some p => simp [moved?]
    · rw [if_neg hk]
      cases moved? (s.last.get? r.1) (some r.2) with
      | none => exact ⟨rfl, rfl⟩
      | some p => simp [hk]

variable (last : KeyMap String Payload) (results : KeyMap String (Except FlagError Evaluation))

theorem get?_changed_scan (key : String) :
    (scan last results.toList).changed.get? key = moved? (last.get? key) (results.get? key) := by
  have h := (get?_foldl_scanKey results.keys_ne ⟨last, .empty⟩ key).2
  exact h.trans (Option.or_none ..)

/-- After a scan the state is the old one with the changes laid over it. -/
theorem last_scan :
    (scan last results.toList).last = last.overlay (scan last results.toList).changed := by
  refine KeyMap.ext_get? fun key => ?_
  rw [KeyMap.get?_overlay, get?_changed_scan]
  exact (get?_foldl_scanKey results.keys_ne ⟨last, .empty⟩ key).1

variable {last} {results}

theorem moved?_eq_some {old : Option Payload} {result : Option (Except FlagError Evaluation)}
    {q : Payload} (h : moved? old result = some q) :
    ∃ e, result = some (.ok e) ∧ q = .ofEvaluation e ∧ old.any (·.hasSameValue e) = false := by
  unfold moved? at h
  split at h
  · next e =>
    split at h
    · cases h
    · next hsame => exact ⟨e, rfl, (Option.some.inj h).symm, by simpa using hsame⟩
  · cases h
  · cases h

theorem differsFrom_of_hasSameValue {p : Payload} {e : Evaluation}
    (h : p.hasSameValue e = false) : (Payload.ofEvaluation e).DiffersFrom p :=
  ⟨e.value, rfl, h⟩

/-! ## Refreshing -/

variable {ev : Evaluator} {context : Option Context} {old new : Snapshot}

/-- **What a refresh pushes is what is new**, and laid on the old state it gives the new one. -/
theorem refresh_eq_some {m : Message} (h : old.refresh ev context = (new, some m)) :
    new.message = old.message.lay m ∧ m.Renews old.message := by
  cases old with
  | flag key p =>
    simp only [refresh] at h
    split at h
    · cases h
    · next e heval =>
      split at h
      · cases h
      · next hsame =>
        cases h
        exact ⟨rfl, differsFrom_of_hasSameValue (by simpa using hsame)⟩
  | flags last =>
    simp only [refresh, Prod.mk.injEq] at h
    obtain ⟨rfl, h⟩ := h
    split at h
    · cases h
    · next hempty =>
      cases h
      refine ⟨congrArg Message.flags (last_scan ..), by simpa using hempty, ?_⟩
      intro key q hq p hp
      rw [get?_changed_scan] at hq
      obtain ⟨e, -, rfl, hsame⟩ := moved?_eq_some hq
      rw [hp, Option.any_some] at hsame
      exact differsFrom_of_hasSameValue hsame

/-- A refresh that pushes nothing changes nothing. -/
theorem refresh_eq_none (h : (old.refresh ev context).2 = none) :
    (old.refresh ev context).1 = old := by
  cases old with
  | flag key p =>
    simp only [refresh] at h ⊢
    split
    · rfl
    · next e heval =>
      rw [heval] at h
      by_cases hsame : p.hasSameValue e = true
      · rw [if_pos hsame]
      · simp [hsame] at h
  | flags last =>
    simp only [refresh] at h ⊢
    have hempty : (scan last (ev.evaluateAll context).toList).changed.isEmpty = true := by
      by_contra hne
      rw [if_neg hne] at h
      cases h
    refine congrArg Snapshot.flags (KeyMap.ext_get? fun key => ?_)
    rw [last_scan, KeyMap.get?_overlay, KeyMap.isEmpty_iff.1 hempty key, Option.none_or]

end Snapshot

/-! ## Agreement with an evaluation -/

namespace FlagValue

/-- Whether a value is a float that is not a number. -/
def isNaN : FlagValue → Bool
  | float x => x.isNaN
  | bool _ => false
  | int _ => false
  | text _ => false

/-- Every value but a NaN equals itself. -/
theorem beq_self {v : FlagValue} (h : v.isNaN = false) : (v == v) = true := by
  cases v with
  | bool b => exact decide_eq_true rfl
  | int i => exact decide_eq_true rfl
  | text s => exact decide_eq_true rfl
  | float x =>
    change x.isNaN = false at h
    change (!x.isNaN && !x.isNaN && x.rank == x.rank) = true
    simp [h]

end FlagValue

theorem Payload.hasSameValue_ofEvaluation {e : Evaluation} (h : e.value.isNaN = false) :
    (Payload.ofEvaluation e).hasSameValue e = true :=
  FlagValue.beq_self h

namespace Snapshot

/-- Every key that evaluates has the value to which it evaluates. -/
def IsCurrent (ev : Evaluator) (context : Option Context) : Snapshot → Prop
  | flag key p => ∀ e, ev.evaluate key context = .ok e → e.value.isNaN = false →
      p.hasSameValue e = true
  | flags ps => ∀ key e, (ev.evaluateAll context).get? key = some (.ok e) →
      e.value.isNaN = false → ∃ p, ps.get? key = some p ∧ p.hasSameValue e = true

theorem isCurrent_initial (ev : Evaluator) (selector : Selector) (context : Option Context) :
    (initial ev selector context).IsCurrent ev context := by
  cases selector with
  | flag key =>
    intro e he hnan
    rw [he]
    exact Payload.hasSameValue_ofEvaluation hnan
  | all =>
    intro key e he hnan
    exact ⟨.ofEvaluation e, by simp [he, Except.toOption],
      Payload.hasSameValue_ofEvaluation hnan⟩

/-- **After a refresh the state agrees with the evaluation.** -/
theorem isCurrent_refresh (ev : Evaluator) (context : Option Context) (old : Snapshot) :
    (old.refresh ev context).1.IsCurrent ev context := by
  cases old with
  | flag key p =>
    cases heval : ev.evaluate key context with
    | error err =>
      simp only [refresh, heval]
      intro e he
      rw [heval] at he
      cases he
    | ok e =>
      by_cases hsame : p.hasSameValue e = true
      · simp only [refresh, heval, if_pos hsame]
        intro e' he' _
        rw [heval] at he'
        cases he'
        exact hsame
      · simp only [refresh, heval, if_neg hsame]
        intro e' he' hnan
        rw [heval] at he'
        cases he'
        exact Payload.hasSameValue_ofEvaluation hnan
  | flags last =>
    intro key e he hnan
    rw [last_scan, KeyMap.get?_overlay, get?_changed_scan, he, moved?]
    by_cases hsame : (last.get? key).any (·.hasSameValue e) = true
    · rw [if_pos hsame, Option.none_or]
      exact (Option.any_eq_true ..).1 hsame
    · rw [if_neg hsame, Option.some_or]
      exact ⟨_, rfl, Payload.hasSameValue_ofEvaluation hnan⟩

/-- A state that was made or refreshed with an evaluation. -/
inductive IsFresh (ev : Evaluator) (context : Option Context) : Snapshot → Prop
  | made (selector : Selector) : IsFresh ev context (initial ev selector context)
  | refreshed (old : Snapshot) : IsFresh ev context (old.refresh ev context).1

theorem IsFresh.isCurrent {ev : Evaluator} {context : Option Context} {last : Snapshot}
    (h : last.IsFresh ev context) : last.IsCurrent ev context := by
  cases h with
  | made selector => exact isCurrent_initial ev selector context
  | refreshed old => exact isCurrent_refresh ev context old

end Snapshot

end FlagFanout
