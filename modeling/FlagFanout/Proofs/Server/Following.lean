import FlagFanout.Proofs.Project.Registry
import FlagFanout.Server
import Mathlib.Logic.Function.Basic

/-!
# How a server follows a registry

What matters of a server here is the engine on which the stream of each project runs
(`Serving.engineOf?`). Every operation of a server is described by what it does to that:
`Serving.goesTo_apply` for a membership event, `Serving.goesTo_reconcile` and `Serving.goesTo_start`
for a whole list of projects. Streams that are closed stay where they are, so closing them changes
nothing of it.
-/

namespace FlagFanout

/-! ## Fleets -/

namespace Fleet

/-- Every stream stands at its serial number. -/
def Numbered (f : Fleet) : Prop := ∀ n s, f.stream? n = some s → s.serial = n

/-- Every stream is still there, of the same project and on the same engine. -/
def Keeps (f f' : Fleet) : Prop :=
  ∀ n s, f.stream? n = some s →
    ∃ s', f'.stream? n = some s' ∧ s'.project = s.project ∧ s'.engine = s.engine

theorem Keeps.refl (f : Fleet) : f.Keeps f := fun _ s hs => ⟨s, hs, rfl, rfl⟩

theorem Keeps.trans {f f' f'' : Fleet} (h : f.Keeps f') (h' : f'.Keeps f'') : f.Keeps f'' := by
  intro n s hs
  obtain ⟨s', hs', hproject, hengine⟩ := h n s hs
  obtain ⟨s'', hs'', hproject', hengine'⟩ := h' n s' hs'
  exact ⟨s'', hs'', hproject'.trans hproject, hengine'.trans hengine⟩

variable {f : Fleet}

theorem stream?_setStream {n : Nat} {s : Stream} (h : f.stream? n = some s) {s' : Stream}
    (hserial : s'.serial = n) (k : Nat) :
    (f.setStream s').stream? k = if k = n then some s' else f.stream? k := by
  have hlt : n < f.streams.length := (List.getElem?_eq_some_iff.1 h).1
  unfold stream? setStream
  rw [hserial, List.getElem?_set]
  by_cases heq : n = k
  · rw [if_pos heq, if_pos heq.symm, if_pos hlt]
  · rw [if_neg heq, if_neg (Ne.symm heq)]

/-- A stream changed in place leaves the fleet as it should be. -/
theorem Numbered.setStream (hnumbered : f.Numbered) {n : Nat} {s s' : Stream}
    (h : f.stream? n = some s) (hserial : s'.serial = s.serial) (hproject : s'.project = s.project)
    (hengine : s'.engine = s.engine) : (f.setStream s').Numbered ∧ f.Keeps (f.setStream s') := by
  have hn : s'.serial = n := hserial.trans (hnumbered n s h)
  constructor
  · intro k t ht
    rw [stream?_setStream h hn] at ht
    split at ht
    · next heq =>
      cases ht
      exact hn.trans heq.symm
    · exact hnumbered k t ht
  · intro k t ht
    rw [stream?_setStream h hn]
    by_cases heq : k = n
    · subst heq
      rw [h] at ht
      cases ht
      exact ⟨s', if_pos rfl, hproject, hengine⟩
    · exact ⟨t, by rw [if_neg heq, ht], rfl, rfl⟩

theorem Numbered.close (hnumbered : f.Numbered) (n : Nat) :
    (f.close n).Numbered ∧ f.Keeps (f.close n) := by
  unfold Fleet.close
  cases hs : f.stream? n with
  | none => exact ⟨hnumbered, .refl f⟩
  | some s =>
    have hclosed : (s.close (f.engine s.engine)).1.serial = s.serial ∧
        (s.close (f.engine s.engine)).1.project = s.project ∧
        (s.close (f.engine s.engine)).1.engine = s.engine := by
      unfold Stream.close
      split <;> exact ⟨rfl, rfl, rfl⟩
    obtain ⟨hserial, hproject, hengine⟩ := hclosed
    exact hnumbered.setStream hs hserial hproject hengine

theorem Numbered.closeAll (hnumbered : f.Numbered) (serials : List Nat) :
    (f.closeAll serials).Numbered ∧ f.Keeps (f.closeAll serials) := by
  induction serials generalizing f with
  | nil => exact ⟨hnumbered, .refl f⟩
  | cons n rest ih =>
    obtain ⟨hclose, hkeeps⟩ := hnumbered.close n
    obtain ⟨hrest, hkeeps'⟩ := ih hclose
    exact ⟨hrest, hkeeps.trans hkeeps'⟩

/-- A new stream stands behind the others. -/
theorem stream?_spawn (f : Fleet) (project engineName : String) (config : StreamConfig) (n : Nat) :
    (f.spawn project engineName config).stream? n =
      if n = f.nextSerial then
        some (Stream.start f.nextSerial project engineName config f.digest (f.engine engineName)).1
      else f.stream? n := by
  change (f.streams ++ [_])[n]? = _
  rw [List.getElem?_append]
  by_cases hlt : n < f.streams.length
  · have hne : n ≠ f.nextSerial := Nat.ne_of_lt hlt
    rw [if_pos hlt, if_neg hne]
    rfl
  · rw [if_neg hlt]
    by_cases heq : n = f.nextSerial
    · rw [if_pos heq, heq, nextSerial, Nat.sub_self]
      rfl
    · have hgt : 0 < n - f.streams.length := by
        unfold nextSerial at heq
        omega
      rw [if_neg heq, stream?, List.getElem?_eq_none (Nat.succ_le_of_lt hgt),
        List.getElem?_eq_none (by omega)]

theorem Numbered.spawn (hnumbered : f.Numbered) (project engineName : String)
    (config : StreamConfig) :
    (f.spawn project engineName config).Numbered ∧ f.Keeps (f.spawn project engineName config) := by
  constructor
  · intro n s hs
    rw [stream?_spawn] at hs
    split at hs
    · next heq =>
      cases hs
      exact heq.symm
    · exact hnumbered n s hs
  · intro n s hs
    have hne : n ≠ f.nextSerial := by
      have hlt : n < f.streams.length := (List.getElem?_eq_some_iff.1 hs).1
      exact Nat.ne_of_lt hlt
    exact ⟨s, by rw [stream?_spawn, if_neg hne, hs], rfl, rfl⟩

end Fleet

/-! ## Servers -/

/-- What a server has for a project after an event about it, if the registry has `now` for the
project and the server had `had`. -/
def MembershipEvent.outcome (now had : Option String) : MembershipEvent → Option String
  | added _ => had.or now
  | removed _ => none
  | replaced _ => now

namespace Serving

/-- The engine on which the stream of a project runs. -/
def engineOf? (v : Serving) (id : String) : Option String :=
  ((v.server.byId.get? id).bind v.fleet.stream?).map (·.engine)

/-- Whatever stream the server has for a project exists and is of that project. -/
structure IsHoused (v : Serving) : Prop where
  numbered : v.fleet.Numbered
  housed : ∀ id n, v.server.byId.get? id = some n → ∃ s, v.fleet.stream? n = some s ∧ s.project = id

/-- A server goes over to one that follows the same registry and runs projects on some engines. -/
structure GoesTo (v v' : Serving) (engines : String → Option String) : Prop where
  housed : v'.IsHoused
  closed_eq : v'.server.closed = v.server.closed
  receiver_eq : v'.server.receiver = v.server.receiver
  engine_eq : ∀ id, v'.engineOf? id = engines id

variable {v v' v'' : Serving}

theorem GoesTo.trans {engines engines' : String → Option String} (h : v.GoesTo v' engines)
    (h' : v'.GoesTo v'' engines') : v.GoesTo v'' engines' :=
  ⟨h'.housed, h'.closed_eq.trans h.closed_eq, h'.receiver_eq.trans h.receiver_eq, h'.engine_eq⟩

theorem GoesTo.congr {engines engines' : String → Option String} (h : v.GoesTo v' engines)
    (heq : ∀ id, engines id = engines' id) : v.GoesTo v' engines' :=
  ⟨h.housed, h.closed_eq, h.receiver_eq, fun id => (h.engine_eq id).trans (heq id)⟩

/-- A server that has nothing for a project has no engine for it, and the other way round. -/
theorem IsHoused.engineOf?_eq_none_iff (h : v.IsHoused) {id : String} :
    v.engineOf? id = none ↔ v.server.byId.get? id = none := by
  unfold engineOf?
  cases hn : v.server.byId.get? id with
  | none => simp
  | some n =>
    obtain ⟨s, hs, -⟩ := h.housed id n hn
    simp [hs]

/-- The fleet changes around a server. -/
theorem IsHoused.withFleet (h : v.IsHoused) {f : Fleet} (hnumbered : f.Numbered)
    (hkeeps : v.fleet.Keeps f) : v.GoesTo { v with fleet := f } v.engineOf? := by
  refine ⟨⟨hnumbered, fun id n hn => ?_⟩, rfl, rfl, fun id => ?_⟩
  · obtain ⟨s, hs, hid⟩ := h.housed id n hn
    obtain ⟨s', hs', hproject, -⟩ := hkeeps n s hs
    exact ⟨s', hs', hproject.trans hid⟩
  · unfold engineOf?
    cases hn : v.server.byId.get? id with
    | none => rfl
    | some n =>
      obtain ⟨s, hs, -⟩ := h.housed id n hn
      obtain ⟨s', hs', -, hengine⟩ := hkeeps n s hs
      simp [hs, hs', hengine]

theorem IsHoused.goesTo_retire (h : v.IsHoused) (serials : List Nat) :
    v.GoesTo (v.retire serials) v.engineOf? := by
  obtain ⟨hnumbered, hkeeps⟩ := h.numbered.closeAll serials
  exact h.withFleet hnumbered hkeeps

/-- The cache of access keys changes. -/
theorem IsHoused.goesTo_indexKeys (h : v.IsHoused) (p : Project) :
    v.GoesTo (v.indexKeys p) v.engineOf? :=
  ⟨⟨h.numbered, h.housed⟩, rfl, rfl, fun _ => rfl⟩

theorem IsHoused.goesTo_forget (h : v.IsHoused) (id : String) :
    v.GoesTo { v with server := v.server.forget id } (Function.update v.engineOf? id none) := by
  have hget : ∀ id', (v.server.forget id).byId.get? id' =
      if id' = id then none else v.server.byId.get? id' := fun id' => KeyMap.get?_erase ..
  refine ⟨⟨h.numbered, fun id' n hn => ?_⟩, rfl, rfl, fun id' => ?_⟩
  · rw [hget] at hn
    split at hn
    · cases hn
    · exact h.housed id' n hn
  · rw [Function.update_apply]
    change (((v.server.forget id).byId.get? id').bind v.fleet.stream?).map (·.engine) = _
    rw [hget]
    split <;> rfl

theorem IsHoused.goesTo_spawn (h : v.IsHoused) (p : Project) :
    v.GoesTo (v.spawn p).2 (Function.update v.engineOf? p.id (some p.engine)) := by
  obtain ⟨hnumbered, hkeeps⟩ := h.numbered.spawn p.id p.engine v.server.config
  have hgo := h.withFleet hnumbered hkeeps
  have hget : ∀ id, (v.spawn p).2.server.byId.get? id =
      if id = p.id then some v.fleet.nextSerial else v.server.byId.get? id :=
    fun id => KeyMap.get?_insert ..
  have hnew := v.fleet.stream?_spawn p.id p.engine v.server.config v.fleet.nextSerial
  rw [if_pos rfl] at hnew
  refine ⟨⟨hnumbered, fun id n hn => ?_⟩, rfl, rfl, fun id => ?_⟩
  · rw [hget] at hn
    split at hn
    · next heq =>
      cases hn
      exact ⟨_, hnew, heq.symm⟩
    · exact hgo.housed.housed id n hn
  · rw [Function.update_apply]
    change (((v.spawn p).2.server.byId.get? id).bind
      (v.fleet.spawn p.id p.engine v.server.config).stream?).map (·.engine) = _
    rw [hget]
    split
    · rw [Option.bind_some, hnew]
      rfl
    · exact hgo.engine_eq id

theorem IsHoused.goesTo_replace (h : v.IsHoused) (p : Project) :
    v.GoesTo (v.replace p) (Function.update v.engineOf? p.id (some p.engine)) := by
  have hspawn := h.goesTo_spawn p
  have hindex := hspawn.housed.goesTo_indexKeys p
  have hretire := hindex.housed.goesTo_retire (v.spawn p).1.toList
  exact (hspawn.trans (hindex.trans hretire)).congr fun id =>
    (hindex.engine_eq id).trans (hspawn.engine_eq id)

theorem IsHoused.goesTo_add (h : v.IsHoused) (p : Project) :
    v.GoesTo (v.add p)
      (Function.update v.engineOf? p.id ((v.engineOf? p.id).or (some p.engine))) := by
  unfold Serving.add
  cases hn : v.server.byId.get? p.id with
  | some n =>
    have hsome : v.engineOf? p.id ≠ none := by
      rw [Ne, h.engineOf?_eq_none_iff, hn]
      simp
    obtain ⟨engine, hengine⟩ := Option.ne_none_iff_exists'.1 hsome
    rw [KeyMap.contains, hn, Option.isSome_some, if_pos rfl, hengine, Option.some_or, ← hengine,
      Function.update_eq_self]
    exact h.goesTo_indexKeys p
  | none =>
    rw [KeyMap.contains, hn, Option.isSome_none, if_neg Bool.false_ne_true,
      h.engineOf?_eq_none_iff.2 hn, Option.none_or]
    have hspawn := h.goesTo_spawn p
    have hindex := hspawn.housed.goesTo_indexKeys p
    exact (hspawn.trans hindex).congr hspawn.engine_eq

theorem IsHoused.goesTo_remove (h : v.IsHoused) (id : String) :
    v.GoesTo (v.remove id) (Function.update v.engineOf? id none) := by
  have hforget := h.goesTo_forget id
  have hretire := hforget.housed.goesTo_retire (v.server.byId.get? id).toList
  exact (hforget.trans hretire).congr hforget.engine_eq

/-- **A membership event** concerns its project only, and what becomes of that depends on what the
registry has for it. -/
theorem goesTo_apply (h : v.IsHoused) (projects : List Project) (e : MembershipEvent) :
    v.GoesTo (v.apply projects e)
      (Function.update v.engineOf? e.projectId
        (e.outcome (Project.engineWithId? projects e.projectId) (v.engineOf? e.projectId))) := by
  cases e with
  | added id =>
    simp only [MembershipEvent.projectId, MembershipEvent.outcome, Project.engineWithId?,
      Serving.apply]
    cases hp : Project.withId? projects id with
    | none =>
      rw [Option.map_none, Option.or_none, Function.update_eq_self]
      exact ⟨h, rfl, rfl, fun _ => rfl⟩
    | some p =>
      obtain ⟨-, rfl⟩ := Project.withId?_some hp
      exact h.goesTo_add p
  | removed id => exact h.goesTo_remove id
  | replaced id =>
    simp only [MembershipEvent.projectId, MembershipEvent.outcome, Project.engineWithId?,
      Serving.apply]
    cases hp : Project.withId? projects id with
    | none => exact h.goesTo_remove id
    | some p =>
      obtain ⟨-, rfl⟩ := Project.withId?_some hp
      exact h.goesTo_replace p

/-! ## Whole lists of projects -/

/-- What is done to one project after the other ends with every project of the list on its engine,
and leaves the others alone. -/
theorem goesTo_foldl {σ : Type} (out : σ → Serving) (f : σ → Project → σ)
    (hstep : ∀ s p, (out s).IsHoused →
      (out s).GoesTo (out (f s p)) (Function.update (out s).engineOf? p.id (some p.engine)))
    {projects : List Project} (hnodup : (projects.map (·.id)).Nodup) {s : σ}
    (h : (out s).IsHoused) :
    (out s).GoesTo (out (projects.foldl f s)) fun id =>
      (Project.engineWithId? projects id).or ((out s).engineOf? id) := by
  induction projects generalizing s with
  | nil => exact ⟨h, rfl, rfl, fun _ => rfl⟩
  | cons p rest ih =>
    obtain ⟨hfresh, hrest⟩ := List.nodup_cons.1 hnodup
    have hfirst := hstep s p h
    refine (hfirst.trans (ih hrest hfirst.housed)).congr fun id => ?_
    rw [hfirst.engine_eq, Function.update_apply, Project.engineWithId?, Project.engineWithId?,
      Project.withId?_cons]
    by_cases heq : p.id = id
    · have hnone : Project.withId? rest id = none := by
        refine Project.withId?_eq_none_iff.2 fun q hq hid => hfresh ?_
        exact List.mem_map.2 ⟨q, hq, hid.trans heq.symm⟩
      rw [hnone, if_pos heq.symm, if_pos heq]
      rfl
    · rw [if_neg (Ne.symm heq), if_neg heq]

theorem align_fst (v : Serving) (retired : List Nat) (p : Project) :
    (align (v, retired) p).1 =
      if v.isCurrent p then v.indexKeys p else (v.spawn p).2.indexKeys p := by
  change (if v.isCurrent p then (v.indexKeys p, retired)
    else ((v.spawn p).2.indexKeys p, retired ++ (v.spawn p).1.toList)).1 = _
  split <;> rfl

theorem IsHoused.goesTo_align (h : v.IsHoused) (retired : List Nat) (p : Project) :
    v.GoesTo (align (v, retired) p).1 (Function.update v.engineOf? p.id (some p.engine)) := by
  rw [align_fst]
  cases hcurrent : v.isCurrent p with
  | true =>
    have hengine : v.engineOf? p.id = some p.engine := by
      obtain ⟨s, hs, heq⟩ := (Option.any_eq_true _ _).1 hcurrent
      rw [engineOf?, hs, Option.map_some, of_decide_eq_true heq]
    rw [if_pos rfl, ← hengine, Function.update_eq_self]
    exact h.goesTo_indexKeys p
  | false =>
    rw [if_neg Bool.false_ne_true]
    have hspawn := h.goesTo_spawn p
    have hindex := hspawn.housed.goesTo_indexKeys p
    exact (hspawn.trans hindex).congr hspawn.engine_eq

/-- Several projects are forgotten. -/
theorem IsHoused.goesTo_forgetAll (h : v.IsHoused) (gone : List (String × Nat)) :
    v.GoesTo { v with server := gone.foldl (fun s e => s.forget e.1) v.server } fun id =>
      if id ∈ gone.map (·.1) then none else v.engineOf? id := by
  induction gone generalizing v with
  | nil => exact ⟨h, rfl, rfl, fun _ => rfl⟩
  | cons e rest ih =>
    have hforget := h.goesTo_forget e.1
    refine (hforget.trans (ih hforget.housed)).congr fun id => ?_
    rw [hforget.engine_eq, Function.update_apply]
    by_cases heq : id = e.1
    · simp [heq]
    · simp only [List.map_cons, List.mem_cons, heq, false_or, if_false]

/-- **After a reconciliation** the server has a stream for every project of the list, on its engine,
and no other. -/
theorem goesTo_reconcile (h : v.IsHoused) {projects : List Project}
    (hnodup : (projects.map (·.id)).Nodup) :
    v.GoesTo (v.reconcile projects) (Project.engineWithId? projects) := by
  let gone := v.server.byId.toList.filter fun e => (Project.withId? projects e.1).isNone
  let first : Serving × List Nat :=
    ({ v with server := gone.foldl (fun s e => s.forget e.1) v.server }, gone.map (·.2))
  let last := projects.foldl align first
  have hforget : v.GoesTo first.1 _ := h.goesTo_forgetAll gone
  have halign : first.1.GoesTo last.1 _ := goesTo_foldl (·.1) align
    (fun state p hstate => IsHoused.goesTo_align hstate state.2 p) hnodup hforget.housed
  have hretire : last.1.GoesTo (v.reconcile projects) _ := halign.housed.goesTo_retire last.2
  refine (hforget.trans (halign.trans hretire)).congr fun id => ?_
  rw [halign.engine_eq, hforget.engine_eq, Project.engineWithId?]
  cases hp : Project.withId? projects id with
  | some p => rfl
  | none =>
    rw [Option.map_none, Option.none_or]
    split
    · rfl
    · next hmem =>
      rw [h.engineOf?_eq_none_iff]
      cases hn : v.server.byId.get? id with
      | none => rfl
      | some n =>
        have hentry : (id, n) ∈ v.server.byId.toList := KeyMap.get?_eq_some_iff_mem.1 hn
        refine absurd (List.mem_map.2 ⟨(id, n), List.mem_filter.2 ⟨hentry, ?_⟩, rfl⟩) hmem
        rw [hp, Option.isNone_none]

/-- **A new server** has a stream for every project of the list, on its engine, and no other. -/
theorem goesTo_start {projects : List Project} (hnodup : (projects.map (·.id)).Nodup)
    (config : StreamConfig) (receiver : Option Nat) {f : Fleet} (hnumbered : f.Numbered) :
    GoesTo ⟨.ofConfig config receiver, f⟩ (start projects config receiver f)
      (Project.engineWithId? projects) := by
  have hempty : IsHoused ⟨.ofConfig config receiver, f⟩ := ⟨hnumbered, fun _ _ hn => nomatch hn⟩
  have hfold := goesTo_foldl id replace (fun v p hv => hv.goesTo_replace p) hnodup
    (s := ⟨.ofConfig config receiver, f⟩) hempty
  exact hfold.congr fun id => Option.or_none

end Serving

end FlagFanout
