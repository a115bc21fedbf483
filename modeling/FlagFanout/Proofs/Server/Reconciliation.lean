import FlagFanout.Proofs.Server.Hosting
import FlagFanout.Proofs.Server.Lookup

/-!
# A reconciliation with the registry

A server that missed membership events compares itself with the whole list of projects. A project
of the list is *current* if the server has a stream for it on the engine of the list; the others of
the list get a fresh stream, and projects that are not in the list are forgotten. All the while the
cache of access keys is written, project by project, and one project may take a key from another.

`Serving.Aligned` says what the walk over the list has done so far, and `Serving.aligned_foldl` that
it is done for a whole list. In the cache a key leads to the last project of the list that has it
(`Serving.get?_byKey_reconcile`), whatever the cache was before, so a second reconciliation finds
nothing to do (`Serving.reconcile_of_settled`). The main statement is `Serving.reconciled`.
-/

namespace FlagFanout

/-! ## Closing several streams -/

namespace Fleet

@[simp] theorem nextSerial_closeAll (f : Fleet) (serials : List Nat) :
    (f.closeAll serials).nextSerial = f.nextSerial := by
  induction serials generalizing f with
  | nil => rfl
  | cons n rest ih => exact (ih (f.close n)).trans (f.nextSerial_close n)

/-- Of all streams those of the list are closed, and nothing else happens to any. -/
theorem Numbered.stream?_closeAll {f : Fleet} (hnumbered : f.Numbered) (serials : List Nat)
    (k : Nat) : (f.closeAll serials).stream? k =
      if k ∈ serials then (f.stream? k).map ({ · with closed := true }) else f.stream? k := by
  induction serials generalizing f with
  | nil => rfl
  | cons n rest ih =>
    change ((f.close n).closeAll rest).stream? k = _
    rw [ih (hnumbered.close n).1]
    cases hn : f.stream? n with
    | none =>
      rw [close_of_stream?_eq_none hn]
      by_cases hk : k = n
      · subst hk
        simp [hn]
      · simp [hk]
    | some s =>
      rw [(close_of_stream? hnumbered hn).1 k]
      by_cases hk : k = n
      · subst hk
        simp [hn]
      · simp [hk]

end Fleet

/-! ## The cache of access keys -/

theorem Project.hasKey_iff {p : Project} {key : String} : p.hasKey key = true ↔ key ∈ p.keys :=
  List.contains_iff_mem

theorem KeyMap.get?_foldl_insert_const (m : KeyMap String String) (keys : List String)
    (id key : String) : (keys.foldl (fun m key => m.insert key id) m).get? key =
      if key ∈ keys then some id else m.get? key := by
  induction keys generalizing m with
  | nil => rfl
  | cons key' rest ih =>
    rw [List.foldl_cons, ih, get?_insert]
    by_cases hrest : key ∈ rest <;> by_cases hkey : key = key' <;> simp [hrest, hkey]

namespace Server

/-- The keys of a project are all its own; what else led to it is forgotten, and what led to others
stays. -/
theorem get?_byKey_indexKeys (s : Server) (p : Project) (key : String) :
    (s.indexKeys p).byKey.get? key =
      if p.hasKey key = true then some p.id else (s.byKey.get? key).filter (· ≠ p.id) := by
  unfold indexKeys
  rw [KeyMap.get?_foldl_insert_const]
  by_cases hkey : key ∈ p.keys
  · rw [if_pos hkey, if_pos (Project.hasKey_iff.2 hkey)]
  · rw [if_neg hkey, if_neg (mt Project.hasKey_iff.1 hkey)]
    ext id
    rw [KeyMap.get?_filter_eq_some_iff, Option.filter_eq_some_iff]

theorem get?_byKey_forget (s : Server) (id key : String) :
    (s.forget id).byKey.get? key = (s.byKey.get? key).filter (· ≠ id) := by
  ext id'
  change (s.byKey.filter _).get? key = some id' ↔ _
  rw [KeyMap.get?_filter_eq_some_iff, Option.filter_eq_some_iff]

end Server

/-! ## The walk over the list -/

namespace Serving

theorem isCurrent_iff {v : Serving} {p : Project} : v.isCurrent p = true ↔
    ∃ n s, v.server.byId.get? p.id = some n ∧ v.fleet.stream? n = some s ∧ s.engine = p.engine := by
  simp only [isCurrent, Option.any_eq_true, Option.bind_eq_some_iff, decide_eq_true_eq]
  constructor
  · rintro ⟨s, ⟨n, hn, hs⟩, hengine⟩
    exact ⟨n, s, hn, hs, hengine⟩
  · rintro ⟨n, s, hn, hs, hengine⟩
    exact ⟨s, ⟨n, hn, hs⟩, hengine⟩

/-- Whether a project is current depends on its own stream alone. -/
theorem isCurrent_congr {v v' : Serving} {p : Project}
    (hbyId : v'.server.byId.get? p.id = v.server.byId.get? p.id)
    (hstream : ∀ n, v.server.byId.get? p.id = some n → v'.fleet.stream? n = v.fleet.stream? n) :
    v'.isCurrent p = v.isCurrent p := by
  unfold isCurrent
  rw [hbyId]
  cases hn : v.server.byId.get? p.id with
  | none => rfl
  | some n => rw [Option.bind_some, Option.bind_some, hstream n hn]

/-- What a walk over some projects did to the streams of a server, and which of them it put on the
list of those that are still to be closed. -/
structure Aligned (projects : List Project) (state state' : Serving × List Nat) : Prop where
  housed : state'.1.IsHoused
  kept : ∀ p ∈ projects, state.1.isCurrent p = true →
    state'.1.server.byId.get? p.id = state.1.server.byId.get? p.id
  /-- A project that is not current has a stream that did not exist before. -/
  renewed : ∀ p ∈ projects, state.1.isCurrent p = false →
    ∃ n s, state'.1.server.byId.get? p.id = some n ∧ state.1.fleet.nextSerial ≤ n ∧
      state'.1.fleet.stream? n = some s ∧ s.closed = false
  others : ∀ id, id ∉ projects.map (·.id) →
    state'.1.server.byId.get? id = state.1.server.byId.get? id
  stream?_eq : ∀ n < state.1.fleet.nextSerial,
    state'.1.fleet.stream? n = state.1.fleet.stream? n
  nextSerial_eq : state'.1.fleet.nextSerial =
    state.1.fleet.nextSerial + projects.countP (!state.1.isCurrent ·)
  mem_leaving : ∀ n, n ∈ state'.2 ↔ n ∈ state.2 ∨
    ∃ p ∈ projects, state.1.isCurrent p = false ∧ state.1.server.byId.get? p.id = some n

variable {v : Serving} {projects : List Project}

/-- Walking past one project. -/
theorem aligned_align (h : v.IsHoused) (leaving : List Nat) (p : Project) :
    Aligned [p] (v, leaving) (align (v, leaving) p) := by
  have hhoused := (h.goesTo_align leaving p).housed
  have halign : align (v, leaving) p = if v.isCurrent p then (v.indexKeys p, leaving)
      else ((v.spawn p).2.indexKeys p, leaving ++ (v.spawn p).1.toList) := rfl
  cases hcurrent : v.isCurrent p with
  | true =>
    rw [hcurrent, if_pos rfl] at halign
    rw [halign] at hhoused ⊢
    refine ⟨hhoused, fun _ _ _ => rfl, fun q hq hstale => ?_, fun _ _ => rfl, fun _ _ => rfl, ?_,
      fun n => ?_⟩
    · rw [List.mem_singleton.1 hq, hcurrent] at hstale
      cases hstale
    · simp [hcurrent, indexKeys]
    · simp [hcurrent]
  | false =>
    rw [hcurrent, if_neg Bool.false_ne_true] at halign
    rw [halign] at hhoused ⊢
    have hstream := v.fleet.stream?_spawn p.id p.engine v.server.config
    refine ⟨hhoused, fun q hq hkept => ?_, fun q hq _ => ?_, fun id hid => ?_, fun n hn => ?_, ?_,
      fun n => ?_⟩
    · rw [List.mem_singleton.1 hq, hcurrent] at hkept
      cases hkept
    · obtain rfl := List.mem_singleton.1 hq
      exact ⟨_, _, (v.byId_spawn q q.id).trans (if_pos rfl), Nat.le_refl _,
        (hstream v.fleet.nextSerial).trans (if_pos rfl), rfl⟩
    · exact (v.byId_spawn p id).trans (if_neg fun heq => hid (by simp [heq]))
    · exact (hstream n).trans (if_neg (Nat.ne_of_lt hn))
    · exact (v.fleet.nextSerial_spawn ..).trans (by simp [hcurrent])
    · have hprevious : n ∈ (v.spawn p).1.toList ↔ v.server.byId.get? p.id = some n :=
        Option.mem_toList
      simp [hcurrent, hprevious]

/-- Walking on. -/
theorem Aligned.append {projects' : List Project} {state state' state'' : Serving × List Nat}
    (hhoused : state.1.IsHoused) (h : Aligned projects state state')
    (h' : Aligned projects' state' state'')
    (hfresh : ∀ p ∈ projects', p.id ∉ projects.map (·.id))
    (hnew : ∀ p ∈ projects, p.id ∉ projects'.map (·.id)) :
    Aligned (projects ++ projects') state state'' := by
  have hnext : state.1.fleet.nextSerial ≤ state'.1.fleet.nextSerial :=
    h.nextSerial_eq ▸ Nat.le_add_right ..
  -- the projects that are still to come are as they were
  have hsame : ∀ p ∈ projects', state'.1.isCurrent p = state.1.isCurrent p := fun p hp =>
    isCurrent_congr (h.others p.id (hfresh p hp)) fun n hn =>
      h.stream?_eq n (hhoused.lt_nextSerial hn)
  refine ⟨h'.housed, fun p hp hcurrent => ?_, fun p hp hstale => ?_, fun id hid => ?_,
    fun n hn => ?_, ?_, fun n => ?_⟩
  · rcases List.mem_append.1 hp with hp | hp
    · rw [h'.others p.id (hnew p hp), h.kept p hp hcurrent]
    · rw [h'.kept p hp ((hsame p hp).trans hcurrent), h.others p.id (hfresh p hp)]
  · rcases List.mem_append.1 hp with hp | hp
    · obtain ⟨n, s, hn, hle, hs, hopen⟩ := h.renewed p hp hstale
      have hlt : n < state'.1.fleet.nextSerial := Fleet.lt_nextSerial hs
      exact ⟨n, s, (h'.others p.id (hnew p hp)).trans hn, hle, (h'.stream?_eq n hlt).trans hs,
        hopen⟩
    · obtain ⟨n, s, hn, hle, hs, hopen⟩ := h'.renewed p hp ((hsame p hp).trans hstale)
      exact ⟨n, s, hn, Nat.le_trans hnext hle, hs, hopen⟩
  · rw [List.map_append, List.mem_append, not_or] at hid
    rw [h'.others id hid.2, h.others id hid.1]
  · rw [h'.stream?_eq n (Nat.lt_of_lt_of_le hn hnext), h.stream?_eq n hn]
  · have hcount : projects'.countP (!state'.1.isCurrent ·) =
        projects'.countP (!state.1.isCurrent ·) :=
      List.countP_congr fun p hp => by rw [hsame p hp]
    rw [h'.nextSerial_eq, hcount, h.nextSerial_eq, List.countP_append, Nat.add_assoc]
  · have hmem : (∃ p ∈ projects', state'.1.isCurrent p = false ∧
          state'.1.server.byId.get? p.id = some n) ↔
        ∃ p ∈ projects', state.1.isCurrent p = false ∧ state.1.server.byId.get? p.id = some n := by
      refine exists_congr fun p => and_congr_right fun hp => ?_
      rw [hsame p hp, h.others p.id (hfresh p hp)]
    simp only [h'.mem_leaving, h.mem_leaving, hmem, List.mem_append, or_and_right, exists_or,
      or_assoc]

theorem aligned_foldl (hnodup : (projects.map (·.id)).Nodup) {state : Serving × List Nat}
    (h : state.1.IsHoused) : Aligned projects state (projects.foldl align state) := by
  induction projects generalizing state with
  | nil =>
    exact ⟨h, by simp, by simp, fun _ _ => rfl, fun _ _ => rfl, rfl, by simp⟩
  | cons p rest ih =>
    obtain ⟨hfresh, hrest⟩ := List.nodup_cons.1 hnodup
    have hfirst := aligned_align h state.2 p
    refine hfirst.append h (ih hrest hfirst.housed) (fun q hq hmem => hfresh ?_) fun q hq => ?_
    · rw [← List.mem_singleton.1 hmem]
      exact List.mem_map_of_mem hq
    · rwa [List.mem_singleton.1 hq]

/-- The cache after a walk: a key leads to the last project of the list that has it. Where none of
them has it, it leads to a project that is not in the list, or nowhere. -/
theorem get?_byKey_foldl_align (hnodup : (projects.map (·.id)).Nodup)
    (state : Serving × List Nat) (key : String) :
    (projects.foldl align state).1.server.byKey.get? key =
      ((Project.withKey? projects.reverse key).map (·.id)).or
        ((state.1.server.byKey.get? key).filter fun id =>
          (Project.withId? projects id).isNone) := by
  induction projects generalizing state with
  | nil =>
    cases hkey : state.1.server.byKey.get? key <;>
      simp [Project.withKey?, Project.withId?, hkey, Option.filter]
  | cons p rest ih =>
    obtain ⟨hfresh, hrest⟩ := List.nodup_cons.1 hnodup
    have halign : (align state p).1.server.byKey = (state.1.server.indexKeys p).byKey := by
      rw [align_fst]
      split <;> rfl
    have hlast : Project.withKey? (p :: rest).reverse key =
        (Project.withKey? rest.reverse key).or (if p.hasKey key then some p else none) := by
      rw [Project.withKey?, List.reverse_cons, List.find?_append]
      congr 1
      cases hkey : p.hasKey key <;> simp [hkey]
    have hnone : Project.withId? rest p.id = none :=
      Project.withId?_eq_none_iff.2 fun q hq hid => hfresh (List.mem_map.2 ⟨q, hq, hid⟩)
    rw [List.foldl_cons, ih hrest, halign, Server.get?_byKey_indexKeys, hlast, Option.map_or,
      Option.or_assoc]
    congr 1
    split
    · simp [hnone]
    · cases state.1.server.byKey.get? key with
      | none => rfl
      | some id =>
        by_cases heq : id = p.id
        · simp [Option.filter, Project.withId?_cons, heq]
        · simp [Option.filter, Project.withId?_cons, heq, Ne.symm heq]

/-! ## Projects that are gone -/

/-- The server without the projects that are not in a list, and the streams that these had. -/
def cleared (v : Serving) (projects : List Project) : Serving × List Nat :=
  let gone := v.server.byId.toList.filter fun e => (Project.withId? projects e.1).isNone
  ({ v with server := gone.foldl (fun s e => s.forget e.1) v.server }, gone.map (·.2))

theorem reconcile_eq (v : Serving) (projects : List Project) : v.reconcile projects =
    (projects.foldl align (v.cleared projects)).1.retire
      (projects.foldl align (v.cleared projects)).2 := rfl

theorem byId_foldl_forget (gone : List (String × Nat)) (s : Server) (id : String) :
    (gone.foldl (fun s e => s.forget e.1) s).byId.get? id =
      if id ∈ gone.map (·.1) then none else s.byId.get? id := by
  induction gone generalizing s with
  | nil => rfl
  | cons e rest ih =>
    have hforget : (s.forget e.1).byId.get? id = if id = e.1 then none else s.byId.get? id :=
      KeyMap.get?_erase ..
    rw [List.foldl_cons, ih, hforget]
    by_cases hrest : id ∈ rest.map (·.1) <;> by_cases heq : id = e.1 <;>
      simp only [List.map_cons, List.mem_cons, hrest, heq, or_true, true_or, or_false, if_true,
        if_false, ite_self]

theorem byKey_foldl_forget (gone : List (String × Nat)) (s : Server) (key : String) :
    (gone.foldl (fun s e => s.forget e.1) s).byKey.get? key =
      (s.byKey.get? key).filter (· ∉ gone.map (·.1)) := by
  induction gone generalizing s with
  | nil => cases hkey : s.byKey.get? key <;> simp [hkey, Option.filter]
  | cons e rest ih =>
    rw [List.foldl_cons, ih, Server.get?_byKey_forget, Option.filter_filter]
    congr 1
    funext id
    rw [Bool.eq_iff_iff]
    simp [not_or]

section Cleared

variable (v : Serving) (projects : List Project)

theorem mem_gone_iff {id : String} :
    id ∈ (v.server.byId.toList.filter fun e => (Project.withId? projects e.1).isNone).map (·.1) ↔
      Project.withId? projects id = none ∧ ∃ n, v.server.byId.get? id = some n := by
  simp only [List.mem_map, List.mem_filter, Option.isNone_iff_eq_none, KeyMap.toList,
    KeyMap.get?_eq_some_iff_mem]
  constructor
  · rintro ⟨⟨id', n⟩, ⟨hmem, hnone⟩, rfl⟩
    exact ⟨hnone, n, hmem⟩
  · rintro ⟨hnone, n, hmem⟩
    exact ⟨(id, n), ⟨hmem, hnone⟩, rfl⟩

theorem byId_cleared (id : String) : (v.cleared projects).1.server.byId.get? id =
    if (Project.withId? projects id).isSome then v.server.byId.get? id else none := by
  rw [cleared, byId_foldl_forget]
  cases hp : Project.withId? projects id with
  | some p => exact if_neg fun hgone => by simp [(mem_gone_iff v projects).1 hgone] at hp
  | none =>
    cases hn : v.server.byId.get? id with
    | none => simp
    | some n => exact if_pos ((mem_gone_iff v projects).2 ⟨hp, n, hn⟩)

theorem mem_cleared_iff {n : Nat} : n ∈ (v.cleared projects).2 ↔
    ∃ id, Project.withId? projects id = none ∧ v.server.byId.get? id = some n := by
  change n ∈ List.map _ _ ↔ _
  simp only [List.mem_map, List.mem_filter, Option.isNone_iff_eq_none, KeyMap.toList,
    KeyMap.get?_eq_some_iff_mem]
  constructor
  · rintro ⟨⟨id, n'⟩, ⟨hmem, hnone⟩, rfl⟩
    exact ⟨id, hnone, hmem⟩
  · rintro ⟨id, hnone, hmem⟩
    exact ⟨(id, n), ⟨hmem, hnone⟩, rfl⟩

variable {v projects}

theorem IsHoused.cleared (h : v.IsHoused) (projects : List Project) :
    (v.cleared projects).1.IsHoused :=
  (h.goesTo_forgetAll _).housed

theorem withId?_isSome_of_mem {p : Project} (hp : p ∈ projects) :
    (Project.withId? projects p.id).isSome = true := by
  rw [Option.isSome_iff_ne_none, Ne, Project.withId?_eq_none_iff]
  exact fun h => h p hp rfl

theorem isCurrent_cleared {p : Project} (hp : p ∈ projects) :
    (v.cleared projects).1.isCurrent p = v.isCurrent p :=
  isCurrent_congr ((byId_cleared v projects p.id).trans (if_pos (withId?_isSome_of_mem hp)))
    fun _ _ => rfl

/-- No key leads to a project without a stream. -/
def IsKnown (v : Serving) : Prop :=
  ∀ key id, v.server.byKey.get? key = some id → ∃ n, v.server.byId.get? id = some n

/-- Where a key led to a project that is not in the list, that is forgotten. -/
theorem filter_byKey_cleared (hknown : v.IsKnown) (key : String) :
    ((v.cleared projects).1.server.byKey.get? key).filter
      (fun id => (Project.withId? projects id).isNone) = none := by
  rw [cleared, byKey_foldl_forget, Option.filter_filter, Option.filter_eq_none_iff]
  intro id hid hand
  obtain ⟨hstays, hnone⟩ := Bool.and_eq_true_iff.1 hand
  have hgone := (mem_gone_iff v projects).2
    ⟨Option.isNone_iff_eq_none.1 hnone, hknown key id (Option.mem_def.1 hid)⟩
  exact of_decide_eq_true hstays hgone

end Cleared

/-! ## Nothing to do -/

/-- Making keys known changes the cache and nothing else. -/
theorem exists_foldl_indexKeys (projects : List Project) (v : Serving) :
    ∃ byKey, projects.foldl indexKeys v = { v with server := { v.server with byKey } } := by
  induction projects generalizing v with
  | nil => exact ⟨v.server.byKey, rfl⟩
  | cons p rest ih =>
    obtain ⟨byKey, heq⟩ := ih (v.indexKeys p)
    exact ⟨byKey, heq⟩

theorem foldl_align_of_current {v : Serving} {projects : List Project}
    (hcurrent : ∀ p ∈ projects, v.isCurrent p = true) (leaving : List Nat) :
    projects.foldl align (v, leaving) = (projects.foldl indexKeys v, leaving) := by
  induction projects generalizing v with
  | nil => rfl
  | cons p rest ih =>
    have halign : align (v, leaving) p = (v.indexKeys p, leaving) := by
      simp only [align, hcurrent p List.mem_cons_self, if_true]
    rw [List.foldl_cons, halign]
    exact ih fun q hq => hcurrent q (List.mem_cons_of_mem _ hq)

/-- Every project of the list is current and the server has no other. -/
structure IsSettled (projects : List Project) (v : Serving) : Prop where
  current : ∀ p ∈ projects, v.isCurrent p = true
  listed : ∀ id n, v.server.byId.get? id = some n → id ∈ projects.map (·.id)

theorem withId?_isSome_iff {projects : List Project} {id : String} :
    (Project.withId? projects id).isSome = true ↔ id ∈ projects.map (·.id) := by
  rw [Option.isSome_iff_ne_none, Ne, Project.withId?_eq_none_iff, List.mem_map]
  simp

/-- Where everything is settled, the keys are made known again and that is all. -/
theorem IsSettled.reconcile_eq {projects : List Project} {v : Serving}
    (h : v.IsSettled projects) : v.reconcile projects = projects.foldl indexKeys v := by
  have hgone :
      (v.server.byId.toList.filter fun e => (Project.withId? projects e.1).isNone) = [] := by
    refine List.filter_eq_nil_iff.2 fun e he hnone => ?_
    have hsome := withId?_isSome_iff.2 (h.listed e.1 e.2 (KeyMap.get?_eq_some_iff_mem.2 he))
    rw [← Option.not_isNone, hnone] at hsome
    cases hsome
  have hcleared : v.cleared projects = (v, []) := by
    rw [cleared, hgone]
    rfl
  rw [Serving.reconcile_eq, hcleared, foldl_align_of_current h.current]
  rfl

/-- **A server on which nothing is left to do** stays as it is, if its cache is that of the list. -/
theorem reconcile_of_settled {projects : List Project} {v : Serving} (h : v.IsSettled projects)
    (hnodup : (projects.map (·.id)).Nodup)
    (hbyKey : ∀ key, v.server.byKey.get? key =
      (Project.withKey? projects.reverse key).map (·.id)) : v.reconcile projects = v := by
  have hindex := foldl_align_of_current h.current []
  obtain ⟨byKey, heq⟩ := exists_foldl_indexKeys projects v
  have hsame : byKey = v.server.byKey := by
    refine KeyMap.ext_get? fun key => ?_
    have hwalk := get?_byKey_foldl_align hnodup (v, []) key
    rw [hindex, heq] at hwalk
    change byKey.get? key = _ at hwalk
    rw [hwalk, hbyKey]
    -- no key leads to a project that is not in the list
    cases howner : Project.withKey? projects.reverse key with
    | some p => rfl
    | none => simp
  rw [h.reconcile_eq, heq, hsame]

/-! ## The whole reconciliation -/

section Whole

variable {v : Serving} {projects : List Project}

/-- The cache after a reconciliation is that of the list, whatever it was before. -/
theorem get?_byKey_reconcile (hknown : v.IsKnown) (hnodup : (projects.map (·.id)).Nodup)
    (key : String) : (v.reconcile projects).server.byKey.get? key =
      (Project.withKey? projects.reverse key).map (·.id) := by
  rw [reconcile_eq]
  change (projects.foldl align _).1.server.byKey.get? key = _
  rw [get?_byKey_foldl_align hnodup, filter_byKey_cleared hknown, Option.or_none]

/-- An access key leads to a project that has it. -/
theorem owns_of_byKey_reconcile (hknown : v.IsKnown) (hnodup : (projects.map (·.id)).Nodup)
    {key id : String} (hkey : (v.reconcile projects).server.byKey.get? key = some id) :
    ∃ p ∈ projects, p.id = id ∧ key ∈ p.keys := by
  rw [get?_byKey_reconcile hknown hnodup, Option.map_eq_some_iff] at hkey
  obtain ⟨p, hp, hid⟩ := hkey
  obtain ⟨hmem, hhas⟩ := Project.withKey?_some hp
  exact ⟨p, List.mem_reverse.1 hmem, hid, Project.hasKey_iff.1 hhas⟩

/-- Every access key of the list is known, and leads to a project that has it. -/
theorem byKey_reconcile_of_mem (hknown : v.IsKnown) (hnodup : (projects.map (·.id)).Nodup)
    {p : Project} (hp : p ∈ projects) {key : String} (hkey : key ∈ p.keys) :
    ∃ q ∈ projects, (v.reconcile projects).server.byKey.get? key = some q.id ∧ key ∈ q.keys := by
  cases howner : Project.withKey? projects.reverse key with
  | none =>
    have hnone := Project.withKey?_eq_none_iff.1 howner p (List.mem_reverse.2 hp)
    rw [Project.hasKey_iff.2 hkey] at hnone
    cases hnone
  | some q =>
    obtain ⟨hmem, hhas⟩ := Project.withKey?_some howner
    refine ⟨q, List.mem_reverse.1 hmem, ?_, Project.hasKey_iff.1 hhas⟩
    rw [get?_byKey_reconcile hknown hnodup, howner, Option.map_some]

theorem IsHoused.isSettled_reconcile (h : v.IsHoused) (hnodup : (projects.map (·.id)).Nodup) :
    (v.reconcile projects).IsSettled projects := by
  have hgo := goesTo_reconcile h hnodup
  constructor
  · intro p hp
    obtain ⟨q, hq⟩ := Option.isSome_iff_exists.1 (withId?_isSome_of_mem hp)
    obtain ⟨hmem, hid⟩ := Project.withId?_some hq
    have hqp : q = p := List.inj_on_of_nodup_map hnodup hmem hp hid
    have hengine := hgo.engine_eq p.id
    rw [Project.engineWithId?, hq, hqp, Option.map_some, engineOf?,
      Option.map_eq_some_iff] at hengine
    obtain ⟨s, hs, heq⟩ := hengine
    rw [isCurrent, hs, Option.any_some, heq]
    exact decide_eq_true rfl
  · intro id n hn
    have hsome : (v.reconcile projects).engineOf? id ≠ none := by
      rw [Ne, hgo.housed.engineOf?_eq_none_iff, hn]
      exact Option.some_ne_none n
    rw [hgo.engine_eq, Project.engineWithId?, Ne, Option.map_eq_none_iff] at hsome
    exact withId?_isSome_iff.1 (Option.isSome_iff_ne_none.2 hsome)

/-- What a reconciliation does. -/
structure Reconciled (projects : List Project) (v v' : Serving) : Prop where
  contains_iff : ∀ id, v'.server.byId.contains id = true ↔ id ∈ projects.map (·.id)
  runs : ∀ p ∈ projects, ∃ n s, v'.server.byId.get? p.id = some n ∧
    v'.fleet.stream? n = some s ∧ s.project = p.id ∧ s.engine = p.engine
  /-- A stream on the right engine stays, with all that it is. -/
  kept : ∀ p ∈ projects, ∀ n s, v.server.byId.get? p.id = some n → v.fleet.stream? n = some s →
    s.engine = p.engine → v'.server.byId.get? p.id = some n ∧ v'.fleet.stream? n = some s
  /-- A project that had no such stream gets one that did not exist before. -/
  renewed : ∀ p ∈ projects, v.isCurrent p = false → ∃ n s,
    v'.server.byId.get? p.id = some n ∧ v.fleet.nextSerial ≤ n ∧
      v'.fleet.stream? n = some s ∧ s.closed = false
  /-- No other streams are started. -/
  nextSerial_eq :
    v'.fleet.nextSerial = v.fleet.nextSerial + projects.countP (!v.isCurrent ·)
  /-- A stream that left the server is closed. -/
  left_closed : ∀ id n, v.server.byId.get? id = some n → v'.server.byId.get? id ≠ some n →
    ∃ s, v.fleet.stream? n = some s ∧ v'.fleet.stream? n = some { s with closed := true }
  /-- Streams that were not the server's are left alone. -/
  bystander : ∀ n < v.fleet.nextSerial, (∀ id, v.server.byId.get? id ≠ some n) →
    v'.fleet.stream? n = v.fleet.stream? n
  key_owned : ∀ key id, v'.server.byKey.get? key = some id →
    ∃ p ∈ projects, p.id = id ∧ key ∈ p.keys
  key_known : ∀ p ∈ projects, ∀ key ∈ p.keys,
    ∃ q ∈ projects, v'.server.byKey.get? key = some q.id ∧ key ∈ q.keys
  again : v'.reconcile projects = v'
  /-- If the registry lists the same projects in another order, at most the cache changes. -/
  reordered : ∀ projects', projects'.Perm projects →
    (v'.reconcile projects').fleet = v'.fleet ∧
      (v'.reconcile projects').server.byId = v'.server.byId

theorem byId_cleared_of_mem (v : Serving) {p : Project} (hp : p ∈ projects) :
    (v.cleared projects).1.server.byId.get? p.id = v.server.byId.get? p.id :=
  (byId_cleared v projects p.id).trans (if_pos (withId?_isSome_of_mem hp))

/-- A project that is not current has a new stream after the walk. -/
theorem IsHoused.renewed (h : v.IsHoused) (hnodup : (projects.map (·.id)).Nodup) {p : Project}
    (hp : p ∈ projects) (hstale : v.isCurrent p = false) :
    ∃ n s, (v.reconcile projects).server.byId.get? p.id = some n ∧ v.fleet.nextSerial ≤ n ∧
      (projects.foldl align (v.cleared projects)).1.fleet.stream? n = some s ∧ s.closed = false :=
  (aligned_foldl hnodup (h.cleared projects)).renewed p hp ((isCurrent_cleared hp).trans hstale)

/-- The streams that are closed in the end are those that left the server. -/
theorem IsHoused.mem_leaving_iff (h : v.IsHoused) (hnodup : (projects.map (·.id)).Nodup) {n : Nat} :
    n ∈ (projects.foldl align (v.cleared projects)).2 ↔
      ∃ id, v.server.byId.get? id = some n ∧
        (v.reconcile projects).server.byId.get? id ≠ some n := by
  have hwalk := aligned_foldl hnodup (h.cleared projects)
  rw [hwalk.mem_leaving, mem_cleared_iff]
  constructor
  · rintro (⟨id, hgone, hn⟩ | ⟨p, hp, hstale, hn⟩)
    · refine ⟨id, hn, fun hstays => ?_⟩
      have hlisted := (h.isSettled_reconcile hnodup).listed id n hstays
      rw [← withId?_isSome_iff, hgone] at hlisted
      cases hlisted
    · rw [byId_cleared_of_mem v hp] at hn
      rw [isCurrent_cleared hp] at hstale
      obtain ⟨k, -, hk, hle, -⟩ := h.renewed hnodup hp hstale
      refine ⟨p.id, hn, fun hstays => ?_⟩
      obtain rfl := Option.some.inj (hk.symm.trans hstays)
      exact absurd (h.lt_nextSerial hn) (Nat.not_lt.2 hle)
  · rintro ⟨id, hn, hleft⟩
    cases hfound : Project.withId? projects id with
    | none => exact .inl ⟨id, hfound, hn⟩
    | some p =>
      obtain ⟨hp, rfl⟩ := Project.withId?_some hfound
      have hcleared := byId_cleared_of_mem v hp
      refine .inr ⟨p, hp, Bool.eq_false_iff.2 fun hcurrent => hleft ?_, hcleared.trans hn⟩
      exact (hwalk.kept p hp hcurrent).trans (hcleared.trans hn)

/-- What becomes of the streams that were there before a reconciliation. -/
theorem IsHoused.stream?_reconcile (h : v.IsHoused) (hnodup : (projects.map (·.id)).Nodup) {n : Nat}
    (hlt : n < v.fleet.nextSerial) : (v.reconcile projects).fleet.stream? n =
      if n ∈ (projects.foldl align (v.cleared projects)).2 then
        (v.fleet.stream? n).map ({ · with closed := true })
      else v.fleet.stream? n := by
  have hwalk := aligned_foldl hnodup (h.cleared projects)
  have hsame : (projects.foldl align (v.cleared projects)).1.fleet.stream? n = v.fleet.stream? n :=
    hwalk.stream?_eq n hlt
  rw [← hsame]
  exact hwalk.housed.numbered.stream?_closeAll ..

/-- The new stream of a project that was not current is open in the end. -/
theorem IsHoused.starts (h : v.IsHoused) (hnodup : (projects.map (·.id)).Nodup) {p : Project}
    (hp : p ∈ projects) (hstale : v.isCurrent p = false) :
    ∃ n s, (v.reconcile projects).server.byId.get? p.id = some n ∧ v.fleet.nextSerial ≤ n ∧
      (v.reconcile projects).fleet.stream? n = some s ∧ s.closed = false := by
  have hwalk := aligned_foldl hnodup (h.cleared projects)
  obtain ⟨n, s, hn, hle, hs, hopen⟩ := h.renewed hnodup hp hstale
  refine ⟨n, s, hn, hle, (hwalk.housed.numbered.stream?_closeAll ..).trans ?_, hopen⟩
  rw [if_neg, hs]
  intro hleaving
  obtain ⟨id, hid, -⟩ := (h.mem_leaving_iff hnodup).1 hleaving
  exact absurd (h.lt_nextSerial hid) (Nat.not_lt.2 hle)

/-- A stream on the right engine stays the stream of its project, and nobody closes it. -/
theorem IsHoused.keeps (h : v.IsHoused) (hnodup : (projects.map (·.id)).Nodup) {p : Project}
    (hp : p ∈ projects) {n : Nat} {s : Stream} (hn : v.server.byId.get? p.id = some n)
    (hs : v.fleet.stream? n = some s) (hengine : s.engine = p.engine) :
    (v.reconcile projects).server.byId.get? p.id = some n ∧
      (v.reconcile projects).fleet.stream? n = some s := by
  have hcurrent := (isCurrent_cleared hp).trans (isCurrent_iff.2 ⟨n, s, hn, hs, hengine⟩)
  have hbyId : (v.reconcile projects).server.byId.get? p.id = some n :=
    ((aligned_foldl hnodup (h.cleared projects)).kept p hp hcurrent).trans
      ((byId_cleared_of_mem v hp).trans hn)
  refine ⟨hbyId, (h.stream?_reconcile hnodup (Fleet.lt_nextSerial hs)).trans ?_⟩
  rw [if_neg, hs]
  intro hleaving
  obtain ⟨id, hid, hleft⟩ := (h.mem_leaving_iff hnodup).1 hleaving
  rw [h.id_eq hid hn] at hleft
  exact hleft hbyId

/-- **A reconciliation** leaves the server with the projects of the list and no others, each of them
on its engine. Streams that are on the right engine stay and only those that leave are closed; the
access keys are those of the list; and a second reconciliation changes nothing. -/
theorem reconciled (h : v.IsHoused) (hknown : v.IsKnown) (hnodup : (projects.map (·.id)).Nodup) :
    Reconciled projects v (v.reconcile projects) := by
  have hwalk := aligned_foldl hnodup (h.cleared projects)
  have hhoused := (goesTo_reconcile h hnodup).housed
  have hsettled := h.isSettled_reconcile hnodup
  have hcurrent : ∀ p ∈ projects, ∃ n s, (v.reconcile projects).server.byId.get? p.id = some n ∧
      (v.reconcile projects).fleet.stream? n = some s ∧ s.engine = p.engine :=
    fun p hp => isCurrent_iff.1 (hsettled.current p hp)
  refine
    { contains_iff := fun id => ⟨fun hid => ?_, fun hid => ?_⟩
      runs := fun p hp => ?_
      kept := fun p hp n s hn hs hengine => h.keeps hnodup hp hn hs hengine
      renewed := fun p hp hstale => h.starts hnodup hp hstale
      nextSerial_eq := ?_
      left_closed := fun id n hn hleft => ?_
      bystander := fun n hlt hnobody => ?_
      key_owned := fun key id hkey => owns_of_byKey_reconcile hknown hnodup hkey
      key_known := fun p hp key hkey => byKey_reconcile_of_mem hknown hnodup hp hkey
      again := reconcile_of_settled hsettled hnodup (get?_byKey_reconcile hknown hnodup)
      reordered := fun projects' hperm => ?_ }
  · obtain ⟨n, hn⟩ := Option.isSome_iff_exists.1 hid
    exact hsettled.listed id n hn
  · obtain ⟨p, hp, rfl⟩ := List.mem_map.1 hid
    obtain ⟨n, -, hn, -⟩ := hcurrent p hp
    rw [KeyMap.contains, hn, Option.isSome_some]
  · obtain ⟨n, s, hn, hs, hengine⟩ := hcurrent p hp
    obtain ⟨s', hs', hproject⟩ := hhoused.housed p.id n hn
    rw [hs] at hs'
    cases hs'
    exact ⟨n, s, hn, hs, hproject, hengine⟩
  · have hcount : projects.countP (!(v.cleared projects).1.isCurrent ·) =
        projects.countP (!v.isCurrent ·) :=
      List.countP_congr fun p hp => by rw [isCurrent_cleared hp]
    exact ((Fleet.nextSerial_closeAll ..).trans hwalk.nextSerial_eq).trans
      (congrArg (v.fleet.nextSerial + ·) hcount)
  · obtain ⟨s, hs, -⟩ := h.housed id n hn
    refine ⟨s, hs, (h.stream?_reconcile hnodup (h.lt_nextSerial hn)).trans ?_⟩
    rw [if_pos ((h.mem_leaving_iff hnodup).2 ⟨id, hn, hleft⟩), hs, Option.map_some]
  · rw [h.stream?_reconcile hnodup hlt, if_neg]
    intro hleaving
    obtain ⟨id, hid, -⟩ := (h.mem_leaving_iff hnodup).1 hleaving
    exact hnobody id hid
  · have hsettled' : (v.reconcile projects).IsSettled projects' :=
      ⟨fun p hp => hsettled.current p (hperm.mem_iff.1 hp), fun id n hn =>
        (hperm.map (·.id)).mem_iff.2 (hsettled.listed id n hn)⟩
    obtain ⟨byKey, heq⟩ := exists_foldl_indexKeys projects' (v.reconcile projects)
    rw [hsettled'.reconcile_eq, heq]
    exact ⟨rfl, rfl⟩

/-- A server missed that `a` is gone, that `b` and `c` have exchanged a key, that `c` moved to
another engine and that `d` is new. One stream stays, two are closed and two are started. -/
theorem reconciled_after_lag :
    ∃ (v : Serving) (projects : List Project), Reconciled projects v (v.reconcile projects) ∧
      v.server.byId.toList = [("a", 0), ("b", 1), ("c", 2)] ∧
      v.server.byKey.toList = [("k", "a"), ("l", "b"), ("m", "c")] ∧
      (v.reconcile projects).server.byId.toList = [("b", 1), ("c", 3), ("d", 4)] ∧
      (v.reconcile projects).server.byKey.toList = [("k", "d"), ("l", "c"), ("m", "b")] ∧
      (v.reconcile projects).fleet.streams.map (·.closed) = [true, false, true, false, false] := by
  let config : StreamConfig := ⟨1, 4, .block, "s"⟩
  let fleet : Fleet := ⟨.empty, [], fun _ => 0⟩
  let w := Hosting.start [⟨"a", ["k"], "e"⟩, ⟨"b", ["l"], "e"⟩, ⟨"c", ["m"], "e"⟩] config none fleet
  let projects : List Project := [⟨"b", ["m"], "e"⟩, ⟨"c", ["l", "k"], "f"⟩, ⟨"d", ["k"], "f"⟩]
  have htidy : w.serving.IsTidy w.guests [] :=
    Hosting.isTidy_start (Fleet.isSound_empty _) _ config none
  exact ⟨w.serving, projects, reconciled htidy.housed htidy.known (by decide), by decide +kernel,
    by decide +kernel, by decide +kernel, by decide +kernel, by decide +kernel⟩

end Whole

end Serving

end FlagFanout
