import FlagFanout.Deployment
import FlagFanout.Proofs.Project.Registry

/-!
# Looking a stream up by an access key

A server caches which project an access key belongs to. `Server.granted?` is what the registry alone
says: the stream of the project to which it gives the key. A hit of the cache counts only if the
registry confirms it (`lookupKey_cases`), and otherwise the lookup goes on as if nothing had been
cached, so the cache never shows: `Deployment.isAnswer_lookup`.
-/

namespace FlagFanout

/-! ## Finding projects -/

namespace Project

variable {projects : List Project} {p : Project}

theorem withKey?_some {key : String} (h : withKey? projects key = some p) :
    p ∈ projects ∧ p.hasKey key = true :=
  ⟨List.mem_of_find?_eq_some h, List.find?_some (p := fun q : Project => q.hasKey key) h⟩

theorem withKey?_eq_none_iff {key : String} :
    withKey? projects key = none ↔ ∀ p ∈ projects, p.hasKey key = false := by
  simp [withKey?]

/-- Every project of the list that gives access to a key has one and the same identifier. -/
def OwnedOnce (projects : List Project) (key : String) : Prop :=
  ∀ p ∈ projects, ∀ q ∈ projects, p.hasKey key = true → q.hasKey key = true → p.id = q.id

/-- The identifier under which a key is found is that of any project that has the key. -/
theorem OwnedOnce.id_eq {key : String} {q : Project} (h : OwnedOnce projects key)
    (hfound : withKey? projects key = some q) (hp : p ∈ projects) (hkey : p.hasKey key = true) :
    q.id = p.id :=
  h q (withKey?_some hfound).1 p hp (withKey?_some hfound).2 hkey

end Project

namespace Server

variable (s : Server) (projects : List Project) (key : String)

/-! ## The registry alone -/

/-- The stream of the project to which the registry gives a key, whatever is cached. -/
def granted? : Option Nat := (Project.withKey? projects key).bind fun p => s.byId.get? p.id

theorem granted?_some {n : Nat} (h : s.granted? projects key = some n) :
    ∃ p ∈ projects, p.hasKey key = true ∧ s.byId.get? p.id = some n := by
  obtain ⟨p, hp, hn⟩ := Option.bind_eq_some_iff.1 h
  obtain ⟨hmem, hkey⟩ := Project.withKey?_some hp
  exact ⟨p, hmem, hkey, hn⟩

theorem granted?_eq_none_iff :
    s.granted? projects key = none ↔
      Project.withKey? projects key = none ∨
        ∃ p, Project.withKey? projects key = some p ∧ s.byId.get? p.id = none := by
  rw [granted?]
  cases Project.withKey? projects key with
  | none => simp
  | some p => simp

/-- The registry gives a key to the project that has it. -/
theorem granted?_of_mem {projects : List Project} {key : String} {p : Project}
    (h : Project.OwnedOnce projects key) (hp : p ∈ projects) (hkey : p.hasKey key = true) :
    s.granted? projects key = s.byId.get? p.id := by
  cases howner : Project.withKey? projects key with
  | none =>
    rw [Project.withKey?_eq_none_iff.1 howner p hp] at hkey
    cases hkey
  | some q => rw [granted?, howner, Option.bind_some, h.id_eq howner hp hkey]

/-! ## What a lookup writes -/

/-- A key that is found after some were written is one of those, or was there before. -/
theorem get?_of_foldl_insert {m : KeyMap String String} {keys : List String} {id key id' : String}
    (h : (keys.foldl (fun m key => m.insert key id) m).get? key = some id') :
    id' = id ∨ m.get? key = some id' := by
  induction keys generalizing m with
  | nil => exact .inr h
  | cons key' rest ih =>
    rcases ih h with rfl | hold
    · exact .inl rfl
    · rw [KeyMap.get?_insert] at hold
      split at hold
      · cases hold
        exact .inl rfl
      · exact .inr hold

/-- A key that is known after those of a project were made known leads to that project, or was known
before. -/
theorem known_of_indexKeys {p : Project} {key id : String}
    (h : (s.indexKeys p).byKey.get? key = some id) : id = p.id ∨ s.byKey.get? key = some id :=
  (get?_of_foldl_insert h).imp_right fun hold => (KeyMap.get?_filter_eq_some_iff.1 hold).1

theorem known_of_evict {key key' id : String} {current : Option Project}
    (h : (s.evict key current).byKey.get? key' = some id) :
    s.byKey.get? key' = some id ∨ ∃ p, current = some p ∧ p.id = id := by
  cases current with
  | none =>
    refine .inl ?_
    rw [evict, KeyMap.get?_erase] at h
    split at h
    · cases h
    · exact h
  | some p =>
    rcases s.known_of_indexKeys h with rfl | hold
    · exact .inr ⟨p, rfl, rfl⟩
    · exact .inl hold

/-- A server that differs in its cache only. -/
def withCache (byKey : KeyMap String String) : Server := { s with byKey }

theorem exists_evict (current : Option Project) :
    ∃ byKey, s.evict key current = s.withCache byKey := by
  cases current with
  | none => exact ⟨_, rfl⟩
  | some p => exact ⟨_, rfl⟩

theorem accept_fst (p : Project) : (s.accept p).1 = s.byId.get? p.id := by
  unfold accept
  cases hn : s.byId.get? p.id with
  | none => rfl
  | some n => rfl

theorem exists_accept_snd (p : Project) : ∃ byKey, (s.accept p).2 = s.withCache byKey := by
  unfold accept
  cases s.byId.get? p.id with
  | none => exact ⟨s.byKey, rfl⟩
  | some n => exact ⟨_, rfl⟩

theorem resolve_fst : (s.resolve projects key).1 = s.granted? projects key := by
  unfold resolve granted?
  cases Project.withKey? projects key with
  | none => rfl
  | some p => exact s.accept_fst p

theorem exists_resolve_snd : ∃ byKey, (s.resolve projects key).2 = s.withCache byKey := by
  unfold resolve
  cases Project.withKey? projects key with
  | none => exact ⟨s.byKey, rfl⟩
  | some p => exact s.exists_accept_snd p

/-- **A lookup** is answered by the cache where the registry confirms the hit, and otherwise by the
registry, with another cache. -/
theorem lookupKey_cases :
    (∃ id n p, s.byId.get? id = some n ∧ Project.withId? projects id = some p ∧
      p.hasKey key = true ∧ s.lookupKey projects key = (some n, s)) ∨
    ∃ byKey, s.lookupKey projects key = (s.withCache byKey).resolve projects key := by
  unfold lookupKey
  cases hcached : s.cached? key with
  | none => exact .inr ⟨s.byKey, rfl⟩
  | some hit =>
    obtain ⟨id, n⟩ := hit
    by_cases hvalid : (Project.withId? projects id).any (·.hasKey key) = true
    · refine .inl ?_
      obtain ⟨id', -, hn⟩ := Option.bind_eq_some_iff.1 hcached
      obtain ⟨n', hn', heq⟩ := Option.map_eq_some_iff.1 hn
      cases heq
      obtain ⟨p, hp, hkey⟩ := (Option.any_eq_true _ _).1 hvalid
      exact ⟨id, n, p, hn', hp, hkey, by simp only [hvalid, if_true]⟩
    · obtain ⟨byKey, hevict⟩ := s.exists_evict key (Project.withId? projects id)
      exact .inr ⟨byKey, by simp only [hvalid, hevict]; rfl⟩

theorem exists_lookupKey_snd : ∃ byKey, (s.lookupKey projects key).2 = s.withCache byKey := by
  rcases s.lookupKey_cases projects key with ⟨id, n, p, -, -, -, heq⟩ | ⟨byKey, heq⟩
  · exact ⟨s.byKey, by rw [heq]; rfl⟩
  · rw [heq]
    exact (s.withCache byKey).exists_resolve_snd projects key

/-- A lookup that finds nothing found nothing in the registry either. -/
theorem granted?_of_lookupKey_eq_none (h : (s.lookupKey projects key).1 = none) :
    s.granted? projects key = none := by
  rcases s.lookupKey_cases projects key with ⟨id, n, p, -, -, -, heq⟩ | ⟨byKey, heq⟩
  · rw [heq] at h
    cases h
  · rw [heq, resolve_fst] at h
    exact h

/-- A stream that is found is that of a project that has the key. -/
theorem owner_of_lookupKey {n : Nat} (h : (s.lookupKey projects key).1 = some n) :
    ∃ p ∈ projects, p.hasKey key = true ∧ s.byId.get? p.id = some n := by
  rcases s.lookupKey_cases projects key with ⟨id, n', p, hn', hp, hkey, heq⟩ | ⟨byKey, heq⟩
  · rw [heq] at h
    cases h
    obtain ⟨hmem, hid⟩ := Project.withId?_some hp
    exact ⟨p, hmem, hkey, hid ▸ hn'⟩
  · rw [heq, resolve_fst] at h
    exact granted?_some s projects key h

/-- Where no two projects share the key, the lookup is what the registry says. -/
theorem lookupKey_eq_granted? (h : Project.OwnedOnce projects key) :
    (s.lookupKey projects key).1 = s.granted? projects key := by
  cases hfound : (s.lookupKey projects key).1 with
  | none => exact (s.granted?_of_lookupKey_eq_none projects key hfound).symm
  | some n =>
    obtain ⟨p, hmem, hkey, hn⟩ := s.owner_of_lookupKey projects key hfound
    rw [s.granted?_of_mem h hmem hkey, hn]

end Server

namespace Deployment

/-- A lookup by an access key, with the deployment after it. -/
def lookup (d : Deployment) (key : String) : Option Nat × Deployment :=
  let (found, server) := d.serving.server.lookupKey d.registry.projects key
  (found, { d with serving := { d.serving with server } })

/-- The deployment with another cache of access keys. -/
def withCache (d : Deployment) (byKey : KeyMap String String) : Deployment :=
  { d with serving := { d.serving with server := d.serving.server.withCache byKey } }

theorem exists_lookup_snd (d : Deployment) (key : String) :
    ∃ byKey, (d.lookup key).2 = d.withCache byKey := by
  obtain ⟨byKey, hserver⟩ := d.serving.server.exists_lookupKey_snd d.registry.projects key
  refine ⟨byKey, ?_⟩
  rw [withCache, ← hserver]
  rfl

/-- What a lookup by an access key may answer. The cache is not mentioned: an answer is true of what
the registry holds and of which project has a stream. -/
structure IsAnswer (d : Deployment) (key : String) (found : Option Nat) : Prop where
  /-- A stream that is found is that of a project that has the key now. -/
  owned : ∀ n, found = some n →
    ∃ p ∈ d.registry.projects, p.hasKey key = true ∧ d.serving.server.byId.get? p.id = some n
  /-- Nothing is found only where the registry knows no project with the key, or one without a
  stream. -/
  missing : found = none →
    Project.withKey? d.registry.projects key = none ∨
      ∃ p, Project.withKey? d.registry.projects key = some p ∧
        d.serving.server.byId.get? p.id = none
  /-- A key that was revoked finds nothing. -/
  revoked : (∀ p ∈ d.registry.projects, p.hasKey key = false) → found = none
  /-- Where identifiers are unique and no two projects share the key, the stream of the key's owner
  is found. -/
  unique : (d.registry.projects.map (·.id)).Nodup →
    (∀ p ∈ d.registry.projects, ∀ q ∈ d.registry.projects,
      p.hasKey key = true → q.hasKey key = true → p = q) →
    found = (Project.withKey? d.registry.projects key).bind
        (fun p => d.serving.server.byId.get? p.id) ∧
      ∀ p ∈ d.registry.projects, p.hasKey key = true → found = d.serving.server.byId.get? p.id

theorem isAnswer_lookupKey (d : Deployment) (key : String) :
    d.IsAnswer key (d.lookup key).1 := by
  have hfound : (d.lookup key).1 = (d.serving.server.lookupKey d.registry.projects key).1 := rfl
  rw [hfound]
  refine ⟨fun n hn => ?_, fun hn => ?_, fun hrevoked => ?_, fun _ howned => ?_⟩
  · exact Server.owner_of_lookupKey _ _ _ hn
  · exact (Server.granted?_eq_none_iff _ _ _).1 (Server.granted?_of_lookupKey_eq_none _ _ _ hn)
  · refine Option.eq_none_iff_forall_ne_some.2 fun n hn => ?_
    obtain ⟨p, hmem, hkey, -⟩ := Server.owner_of_lookupKey _ _ _ hn
    rw [hrevoked p hmem] at hkey
    cases hkey
  · have honce : Project.OwnedOnce d.registry.projects key := fun p hp q hq hpk hqk =>
      congrArg Project.id (howned p hp q hq hpk hqk)
    rw [Server.lookupKey_eq_granted? _ _ _ honce]
    exact ⟨rfl, fun p hp hkey => Server.granted?_of_mem _ honce hp hkey⟩

/-- **The cache of access keys never shows**, whatever it holds and whatever led there: a lookup
answers as the registry and the index of streams have it at that moment, and it writes nothing but
the cache. -/
theorem isAnswer_lookup (d : Deployment) (byKey : KeyMap String String) (key : String) :
    d.IsAnswer key ((d.withCache byKey).lookup key).1 ∧
      ∃ byKey', ((d.withCache byKey).lookup key).2 = d.withCache byKey' := by
  obtain ⟨howned, hmissing, hrevoked, hunique⟩ := (d.withCache byKey).isAnswer_lookupKey key
  exact ⟨⟨howned, hmissing, hrevoked, hunique⟩, (d.withCache byKey).exists_lookup_snd key⟩

/-- A key went from one project to another after a lookup had cached it under the first one; the
next lookup finds the stream of the second one. -/
theorem found_after_handover :
    ∃ (d : Deployment) (byKey : KeyMap String String),
      byKey.get? "k" = some "a" ∧ d.serving.server.byId.get? "a" = some 0 ∧
        ((d.withCache byKey).lookup "k").1 = some 1 := by
  let projects : List Project := [⟨"a", ["k"], "e"⟩, ⟨"b", [], "e"⟩]
  let first : Deployment :=
    .start (.memory (.dynamic projects)) ⟨1, 4, .block, "s"⟩ ⟨.empty, [], fun _ => 0⟩
  let moved : Registry := ((first.registry.setKeys "a" []).2.setKeys "b" ["k"]).2
  let d : Deployment := { first with registry := moved }
  have hanswer := (d.isAnswer_lookup first.serving.server.byKey "k").1
  have howner :=
    (hanswer.unique (by decide) (by decide)).2 ⟨"b", ["k"], "e"⟩ (by decide) (by decide)
  exact ⟨d, first.serving.server.byKey, by decide, by decide, howner.trans (by decide)⟩

end Deployment

end FlagFanout
