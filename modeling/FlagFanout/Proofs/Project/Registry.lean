import FlagFanout.Project.Registry
import FlagFanout.Proofs.KeyMap
import FlagFanout.Proofs.Project.Broadcast

/-!
# What a change of a registry does

A registry under change writes its projects first and broadcasts afterwards. `MemoryRegistry.write`
is the first half of a change, with the event that is still to be sent; a whole change is both
halves (`MemoryRegistry.perform_eq`). `MemoryRegistry.isWritten_write` says what the first half does
to the engines of the projects, seen through the event: an event tells which project is concerned,
and nothing else changed.

`MemoryRegistry.Lives` says of a dynamic registry that it is in use: changes come one after the
other, and whoever listens to the events comes and goes.
-/

namespace FlagFanout

/-! ## Finding projects -/

namespace Project

variable {projects : List Project} {p : Project} {id : String}

theorem withId?_some (h : withId? projects id = some p) : p ∈ projects ∧ p.id = id :=
  ⟨List.mem_of_find?_eq_some h,
    of_decide_eq_true (List.find?_some (p := fun q : Project => decide (q.id = id)) h)⟩

theorem withId?_eq_none_iff : withId? projects id = none ↔ ∀ p ∈ projects, p.id ≠ id := by
  simp [withId?]

theorem withId?_cons (p : Project) (projects : List Project) (id : String) :
    withId? (p :: projects) id = if p.id = id then some p else withId? projects id := by
  unfold withId?
  rw [List.find?_cons]
  by_cases h : p.id = id <;> simp [h]

/-- The engine of the project with an identifier. -/
def engineWithId? (projects : List Project) (id : String) : Option String :=
  (withId? projects id).map (·.engine)

end Project

/-- What an event tells of the engine that its project had before a change and has after it. -/
def MembershipEvent.Tells : MembershipEvent → Option String → Option String → Prop
  | added _, old, new => old = none ∧ new.isSome
  | removed _, old, new => old.isSome ∧ new = none
  | replaced _, old, new => old.isSome ∧ new.isSome

namespace MemoryRegistry

/-! ## Projects under their own identifiers -/

/-- Every project stands under its own identifier. -/
def IsKeyed (r : MemoryRegistry) : Prop := ∀ id p, r.projects.get? id = some p → p.id = id

/-- The engine of a project. -/
def engineOf? (r : MemoryRegistry) (id : String) : Option String :=
  (r.projects.get? id).map (·.engine)

theorem isKeyed_dynamic (projects : List Project) : (dynamic projects).IsKeyed := by
  intro id p hp
  change (KeyMap.ofList _).get? id = some p at hp
  rw [KeyMap.get?_ofList, ← List.map_reverse] at hp
  generalize projects.reverse = l at hp
  induction l with
  | nil => cases hp
  | cons q rest ih =>
    rw [List.map_cons, KeyMap.lookup] at hp
    split at hp
    · next heq =>
      cases hp
      exact heq.symm
    · exact ih hp

namespace IsKeyed

variable {r : MemoryRegistry}

theorem insert (h : r.IsKeyed) (p : Project) :
    IsKeyed { r with projects := r.projects.insert p.id p } := by
  intro id q hq
  change (r.projects.insert p.id p).get? id = some q at hq
  rw [KeyMap.get?_insert] at hq
  split at hq
  · next heq =>
    cases hq
    exact heq.symm
  · exact h id q hq

theorem erase (h : r.IsKeyed) (id : String) :
    IsKeyed { r with projects := r.projects.erase id } := by
  intro id' q hq
  change (r.projects.erase id).get? id' = some q at hq
  rw [KeyMap.get?_erase] at hq
  split at hq
  · cases hq
  · exact h id' q hq

/-! A list of all projects may come in any order. -/

variable {projects : List Project}

/-- A list of all projects knows a project under the identifier under which it stands. -/
theorem withId?_of_perm (h : r.IsKeyed) (hperm : projects.Perm r.projects.values) (id : String) :
    Project.withId? projects id = r.projects.get? id := by
  have hmem : ∀ p ∈ projects, r.projects.get? p.id = some p := by
    intro p hp
    obtain ⟨k, hk⟩ := KeyMap.mem_values_iff.1 (hperm.mem_iff.1 hp)
    rw [h k p hk, hk]
  cases hfound : Project.withId? projects id with
  | some p =>
    obtain ⟨hp, rfl⟩ := Project.withId?_some hfound
    exact (hmem p hp).symm
  | none =>
    cases hget : r.projects.get? id with
    | none => rfl
    | some p =>
      have hp : p ∈ projects := hperm.mem_iff.2 (KeyMap.mem_values_iff.2 ⟨id, hget⟩)
      exact absurd (h id p hget) (Project.withId?_eq_none_iff.1 hfound p hp)

theorem engineWithId?_of_perm (h : r.IsKeyed) (hperm : projects.Perm r.projects.values)
    (id : String) : Project.engineWithId? projects id = r.engineOf? id := by
  rw [Project.engineWithId?, h.withId?_of_perm hperm, engineOf?]

/-- No two projects of a list of all projects have one identifier. -/
theorem nodup_ids (h : r.IsKeyed) (hperm : projects.Perm r.projects.values) :
    (projects.map (·.id)).Nodup := by
  have hkeys : r.projects.values.map (·.id) = r.projects.keys := by
    rw [KeyMap.values, List.map_map, KeyMap.keys]
    refine List.map_congr_left fun e he => ?_
    exact h e.1 e.2 (KeyMap.get?_eq_some_iff_mem.2 he)
  rw [(hperm.map _).nodup_iff, hkeys]
  exact r.projects.nodup_keys

end IsKeyed

/-! ## Changes -/

/-- A change of a registry. -/
inductive Change where
  | add (p : Project)
  | remove (id : String)
  | replaceEngine (id engine : String)
  | setKeys (id : String) (keys : List String)

/-- The registry after a change. -/
def perform (r : MemoryRegistry) : Change → MemoryRegistry
  | .add p => (r.add p).2
  | .remove id => (r.remove id).2
  | .replaceEngine id engine => (r.replaceEngine id engine).2
  | .setKeys id keys => (r.setKeys id keys).2

/-- The first half of a change: the projects are written, and an event may be left to send. -/
def write (r : MemoryRegistry) : Change → MemoryRegistry × Option MembershipEvent
  | .add p =>
    if r.projects.contains p.id then (r, none)
    else ({ r with projects := r.projects.insert p.id p }, some (.added p.id))
  | .remove id =>
    match r.projects.get? id with
    | none => (r, none)
    | some _ => ({ r with projects := r.projects.erase id }, some (.removed id))
  | .replaceEngine id engine =>
    match r.projects.get? id with
    | none => (r, none)
    | some p => ({ r with projects := r.projects.insert id { p with engine } }, some (.replaced id))
  | .setKeys id keys => ((r.setKeys id keys).2, none)

/-- A change is written and then broadcast. -/
theorem perform_eq (r : MemoryRegistry) (c : Change) :
    r.perform c = (r.write c).2.elim (r.write c).1 (r.write c).1.publish := by
  cases c with
  | add p =>
    simp only [perform, add, write]
    split <;> rfl
  | remove id =>
    cases hp : r.projects.get? id <;> simp only [perform, remove, write, hp] <;> rfl
  | replaceEngine id engine =>
    cases hp : r.projects.get? id <;> simp only [perform, replaceEngine, write, hp] <;> rfl
  | setKeys id keys => rfl

theorem events_write (r : MemoryRegistry) (c : Change) : (r.write c).1.events = r.events := by
  cases c with
  | add p =>
    simp only [write]
    split <;> rfl
  | remove id =>
    simp only [write]
    split <;> rfl
  | replaceEngine id engine =>
    simp only [write]
    split <;> rfl
  | setKeys id keys =>
    simp only [write, setKeys]
    split <;> rfl

theorem IsKeyed.write {r : MemoryRegistry} (h : r.IsKeyed) (c : Change) :
    (r.write c).1.IsKeyed := by
  cases c with
  | add p =>
    simp only [MemoryRegistry.write]
    split
    · exact h
    · exact h.insert p
  | remove id =>
    simp only [MemoryRegistry.write]
    split
    · exact h
    · exact h.erase id
  | replaceEngine id engine =>
    simp only [MemoryRegistry.write]
    split
    · exact h
    · next p hp =>
      have hid : p.id = id := h id p hp
      subst hid
      exact h.insert { p with engine }
  | setKeys id keys =>
    simp only [MemoryRegistry.write, setKeys]
    split
    · exact h
    · next p hp =>
      have hid : p.id = id := h id p hp
      subst hid
      exact h.insert { p with keys }

/-- What the first half of a change does to the engines of the projects: nothing, if no event is
left to send, and otherwise what the event tells. -/
structure IsWritten (r r' : MemoryRegistry) (e : Option MembershipEvent) : Prop where
  engine_eq : ∀ id, (∀ ev, e = some ev → ev.projectId ≠ id) → r'.engineOf? id = r.engineOf? id
  tells : ∀ ev, e = some ev →
    ev.Tells (r.engineOf? ev.projectId) (r'.engineOf? ev.projectId)

theorem engineOf?_insert (r : MemoryRegistry) (id id' : String) (p : Project) :
    engineOf? { r with projects := r.projects.insert id p } id' =
      if id' = id then some p.engine else r.engineOf? id' := by
  unfold engineOf?
  rw [KeyMap.get?_insert]
  split <;> rfl

theorem engineOf?_erase (r : MemoryRegistry) (id id' : String) :
    engineOf? { r with projects := r.projects.erase id } id' =
      if id' = id then none else r.engineOf? id' := by
  unfold engineOf?
  rw [KeyMap.get?_erase]
  split <;> rfl

theorem IsWritten.of_event {r r' : MemoryRegistry} {ev : MembershipEvent}
    (hother : ∀ id, id ≠ ev.projectId → r'.engineOf? id = r.engineOf? id)
    (htells : ev.Tells (r.engineOf? ev.projectId) (r'.engineOf? ev.projectId)) :
    r.IsWritten r' (some ev) := by
  refine ⟨fun id hne => hother id (Ne.symm (hne ev rfl)), ?_⟩
  rintro ev' ⟨⟩
  exact htells

theorem IsWritten.of_none {r r' : MemoryRegistry} (h : ∀ id, r'.engineOf? id = r.engineOf? id) :
    r.IsWritten r' none := by
  refine ⟨fun id _ => h id, ?_⟩
  rintro ev ⟨⟩

theorem isWritten_self (r : MemoryRegistry) : r.IsWritten r none := .of_none fun _ => rfl

/-- **The first half of a change** writes what its event tells. -/
theorem isWritten_write (r : MemoryRegistry) (c : Change) :
    r.IsWritten (r.write c).1 (r.write c).2 := by
  cases c with
  | add p =>
    cases hp : r.projects.get? p.id with
    | some q =>
      simp only [write, KeyMap.contains, hp, Option.isSome_some, if_true]
      exact r.isWritten_self
    | none =>
      simp only [write, KeyMap.contains, hp, Option.isSome_none, Bool.false_eq_true, if_false]
      refine .of_event (fun id hne => (r.engineOf?_insert _ _ _).trans (if_neg hne)) ?_
      rw [MembershipEvent.projectId, engineOf?_insert, if_pos rfl, engineOf?, hp]
      exact ⟨rfl, rfl⟩
  | remove id =>
    cases hp : r.projects.get? id with
    | none =>
      simp only [write, hp]
      exact r.isWritten_self
    | some p =>
      simp only [write, hp]
      refine .of_event (fun id' hne => (r.engineOf?_erase _ _).trans (if_neg hne)) ?_
      rw [MembershipEvent.projectId, engineOf?_erase, if_pos rfl, engineOf?, hp]
      exact ⟨rfl, rfl⟩
  | replaceEngine id engine =>
    cases hp : r.projects.get? id with
    | none =>
      simp only [write, hp]
      exact r.isWritten_self
    | some p =>
      simp only [write, hp]
      refine .of_event (fun id' hne => (r.engineOf?_insert _ _ _).trans (if_neg hne)) ?_
      rw [MembershipEvent.projectId, engineOf?_insert, if_pos rfl, engineOf?, hp]
      exact ⟨rfl, rfl⟩
  | setKeys id keys =>
    cases hp : r.projects.get? id with
    | none =>
      simp only [write, setKeys, hp]
      exact r.isWritten_self
    | some p =>
      simp only [write, setKeys, hp]
      refine .of_none fun id' => ?_
      rw [engineOf?_insert]
      split
      · next heq => rw [heq, engineOf?, hp, Option.map_some]
      · rfl

/-! ## Registries in use -/

/-- The registry with its broadcast changed. -/
def withBroadcast (r : MemoryRegistry)
    (f : Broadcast MembershipEvent → Broadcast MembershipEvent) : MemoryRegistry :=
  { r with events := r.events.map f }

/-- A dynamic registry came to `r` by changes, while receivers of its events came and went. -/
inductive Lives : MemoryRegistry → Prop
  | dynamic (projects : List Project) : Lives (.dynamic projects)
  | change {r : MemoryRegistry} (h : Lives r) (c : Change) : Lives (r.perform c)
  | listen {r : MemoryRegistry} (h : Lives r) : Lives (r.withBroadcast (·.listen))
  | hear {r : MemoryRegistry} (h : Lives r) (receiver : Nat) :
    Lives (r.withBroadcast fun b => (b.hear receiver).2)
  | drop {r : MemoryRegistry} (h : Lives r) (receiver : Nat) :
    Lives (r.withBroadcast (·.drop receiver))

theorem IsKeyed.publish {r : MemoryRegistry} (h : r.IsKeyed) (e : MembershipEvent) :
    (r.publish e).IsKeyed := h

theorem IsKeyed.perform {r : MemoryRegistry} (h : r.IsKeyed) (c : Change) :
    (r.perform c).IsKeyed := by
  rw [perform_eq]
  cases (r.write c).2 with
  | none => exact h.write c
  | some e => exact (h.write c).publish e

namespace Lives

variable {r : MemoryRegistry}

theorem isKeyed (h : r.Lives) : r.IsKeyed := by
  induction h with
  | dynamic projects => exact isKeyed_dynamic projects
  | change _ c ih => exact ih.perform c
  | listen | hear | drop => assumption

theorem exists_events (h : r.Lives) : ∃ b, r.events = some b ∧ b.ended = false := by
  induction h with
  | dynamic => exact ⟨_, rfl, rfl⟩
  | @change r _ c ih =>
    obtain ⟨b, hb, halive⟩ := ih
    rw [perform_eq]
    cases (r.write c).2 with
    | none => exact ⟨b, (r.events_write c).trans hb, halive⟩
    | some e =>
      refine ⟨(b.send e).2, ?_, (b.ended_send e).trans halive⟩
      change (r.write c).1.events.map _ = _
      rw [r.events_write c, hb]
      rfl
  | listen _ ih =>
    obtain ⟨b, hb, halive⟩ := ih
    exact ⟨b.listen, by rw [withBroadcast, hb]; rfl, halive⟩
  | hear _ receiver ih =>
    obtain ⟨b, hb, halive⟩ := ih
    exact ⟨(b.hear receiver).2, by rw [withBroadcast, hb]; rfl,
      (b.ended_hear receiver).trans halive⟩
  | drop _ receiver ih =>
    obtain ⟨b, hb, halive⟩ := ih
    exact ⟨b.drop receiver, by rw [withBroadcast, hb]; rfl, halive⟩

end Lives

end MemoryRegistry

end FlagFanout
