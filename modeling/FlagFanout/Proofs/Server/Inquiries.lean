import FlagFanout.Proofs.Server.Lookup

/-!
# A lookup of an access key, one part after the other

A lookup of an access key takes the lock of the index up to three times and asks the registry in
between. First it reads what the cache has for the key. If the registry does not confirm that, it
corrects the cache; then it asks the registry for the key and takes the stream of the project that
it is told. Between these parts anything may happen to the registry and to the server, so a lookup
may act on what was true once.

An `Inquiry` is such a lookup under way. It returns after at most four parts of its own, whatever
comes between (`Inquiry.Part.toGo_lt`), and where nothing comes between it is `Server.lookupKey`
(`Inquiry.run_inquire`). A lookup that begins on a server without streams is vain
(`Inquiry.IsVain`): it finds nothing and writes nothing. One that had found a stream before may
still write the keys of that stream's project into the cache (`Inquiry.Part.known`).
-/

namespace FlagFanout

/-- How far a lookup has come. -/
inductive Progress where
  /-- The cache has a stream; the registry is to be asked whether its project still has the key. -/
  | hit (id : String) (n : Nat)
  /-- It does not, and this is what the registry has for the project. -/
  | stale (current : Option Project)
  /-- The registry is to be asked for the key. -/
  | missed
  /-- The registry gave the key to a project. -/
  | granted (p : Project)
  | returned (found : Option Nat)
  deriving DecidableEq, Repr

namespace Progress

/-- Whether a lookup goes by what it found in the cache. -/
def goesByHit : Progress → Bool
  | hit .. => true
  | stale _ => true
  | _ => false

/-- The number of parts that are still to come, at most. -/
def toGo : Progress → Nat
  | hit .. => 4
  | stale _ => 3
  | missed => 2
  | granted _ => 1
  | returned _ => 0

end Progress

/-- A lookup of an access key. -/
structure Inquiry where
  key : String
  /-- What the cache had for the key at the beginning: a project and its stream. -/
  cached : Option (String × Nat)
  progress : Progress
  /-- Whether the server gave up its index while the lookup went by what it found there. -/
  overtaken : Bool
  deriving DecidableEq, Repr

/-- A lookup begins with what the cache has. -/
def Server.inquire (s : Server) (key : String) : Inquiry where
  key := key
  cached := s.cached? key
  progress := (s.cached? key).elim .missed fun hit => .hit hit.1 hit.2
  overtaken := false

namespace Inquiry

/-- The lookup when it has come further. -/
def reach (l : Inquiry) (progress : Progress) : Inquiry := { l with progress }

/-- The lookup when the server gives up its index, overtaken if it goes by what it found there. -/
def overtake (l : Inquiry) : Inquiry := { l with overtaken := l.progress.goesByHit }

/-- The next part of a lookup, when the registry holds some projects, with the server after it.
`none` once it has returned. -/
def proceed? (l : Inquiry) (s : Server) (projects : List Project) : Option (Inquiry × Server) :=
  match l.progress with
  | .hit id n =>
    let current := Project.withId? projects id
    if current.any (·.hasKey l.key) then some (l.reach (.returned (some n)), s)
    else some (l.reach (.stale current), s)
  | .stale current => some (l.reach .missed, s.evict l.key current)
  | .missed =>
    some (l.reach ((Project.withKey? projects l.key).elim (.returned none) .granted), s)
  | .granted p =>
    let (found, s) := s.accept p
    some (l.reach (.returned found), s)
  | .returned _ => none

variable {l l' : Inquiry} {s s' : Server} {projects : List Project} {key : String} {n : Nat}

/-! ## What a part does -/

/-- The parts of a lookup, by what it knows before, what it knows then and what it wrote. -/
inductive Part (l : Inquiry) (s : Server) : Inquiry → Server → Prop
  | confirm {id : String} {n : Nat} (hprogress : l.progress = .hit id n) :
    Part l s (l.reach (.returned (some n))) s
  | refute {id : String} {n : Nat} (hprogress : l.progress = .hit id n) {current : Option Project}
    (hcurrent : ∀ p, current = some p → p.id = id) : Part l s (l.reach (.stale current)) s
  | evict {current : Option Project} (hprogress : l.progress = .stale current) :
    Part l s (l.reach .missed) (s.evict l.key current)
  | refuse (hprogress : l.progress = .missed) : Part l s (l.reach (.returned none)) s
  | grant (hprogress : l.progress = .missed) (p : Project) : Part l s (l.reach (.granted p)) s
  | accept {p : Project} (hprogress : l.progress = .granted p) :
    Part l s (l.reach (.returned (s.accept p).1)) (s.accept p).2

/-- **What a lookup does next** is one of the parts. -/
theorem part_of_proceed? (h : l.proceed? s projects = some (l', s')) : l.Part s l' s' := by
  unfold proceed? at h
  cases hprogress : l.progress with
  | hit id n =>
    simp only [hprogress] at h
    split at h
    · cases h
      exact .confirm hprogress
    · cases h
      exact .refute hprogress fun p hp => (Project.withId?_some hp).2
  | stale current =>
    simp only [hprogress] at h
    cases h
    exact .evict hprogress
  | missed =>
    simp only [hprogress] at h
    cases h
    cases Project.withKey? projects l.key with
    | none => exact .refuse hprogress
    | some p => exact .grant hprogress p
  | granted p =>
    simp only [hprogress] at h
    cases h
    exact .accept hprogress
  | returned found =>
    simp only [hprogress] at h
    cases h

/-- A lookup goes on until it has returned. -/
theorem proceed?_eq_none_iff : l.proceed? s projects = none ↔ l.progress.toGo = 0 := by
  unfold proceed?
  cases hprogress : l.progress with
  | hit id n =>
    refine ⟨fun h => ?_, nofun⟩
    dsimp only at h
    split at h
    · cases h
    · cases h
  | stale | missed | granted => exact ⟨nofun, nofun⟩
  | returned found => exact ⟨fun _ => rfl, fun _ => rfl⟩

/-- A lookup stays one of the same key, with the same beginning. -/
theorem Part.frame (h : l.Part s l' s') :
    l'.key = l.key ∧ l'.cached = l.cached ∧ l'.overtaken = l.overtaken := by
  cases h with
  | confirm | refute | evict | refuse | grant | accept => exact ⟨rfl, rfl, rfl⟩

/-- A lookup that does not go by what it found in the cache never does again. -/
theorem Part.goesByHit (h : l.Part s l' s') (hhit : l'.progress.goesByHit = true) :
    l.progress.goesByHit = true := by
  cases h with
  | refute hprogress => exact hprogress ▸ rfl
  | confirm | evict | refuse | grant | accept => cases hhit

/-- A lookup writes nothing but the cache. -/
theorem Part.exists_withCache (h : l.Part s l' s') : ∃ byKey, s' = s.withCache byKey := by
  cases h with
  | confirm | refute | refuse | grant => exact ⟨s.byKey, rfl⟩
  | evict => exact s.exists_evict l.key _
  | accept => exact s.exists_accept_snd _

/-! ## Nobody comes between -/

/-- A lookup goes on for at most `k` parts. -/
def run (projects : List Project) : Nat → Inquiry × Server → Inquiry × Server
  | 0, t => t
  | k + 1, t => (t.1.proceed? t.2 projects).elim t (run projects k)

theorem run_returned (projects : List Project) {found : Option Nat}
    (h : l.progress = .returned found) (k : Nat) : run projects k (l, s) = (l, s) := by
  cases k with
  | zero => rfl
  | succ k => rw [run, proceed?_eq_none_iff.2 (h ▸ rfl), Option.elim_none]

/-- What the registry says about the key is taken at its word. -/
theorem run_missed (h : l.progress = .missed) (k : Nat) :
    run projects (k + 2) (l, s) =
      (l.reach (.returned (s.resolve projects l.key).1), (s.resolve projects l.key).2) := by
  rw [run, proceed?, h]
  unfold Server.resolve
  cases Project.withKey? projects l.key with
  | none => exact run_returned (l := l.reach (.returned none)) projects rfl (k + 1)
  | some p => exact run_returned (l := l.reach (.returned (s.accept p).1)) projects rfl k

/-- A hit counts only if the registry confirms it. -/
theorem run_hit {id : String} (h : l.progress = .hit id n) (k : Nat) :
    run projects (k + 4) (l, s) =
      if (Project.withId? projects id).any (·.hasKey l.key) then
        (l.reach (.returned (some n)), s)
      else run projects (k + 2) (l.reach .missed, s.evict l.key (Project.withId? projects id)) := by
  rw [run, proceed?, h]
  dsimp only
  split
  · exact run_returned (l := l.reach (.returned (some n))) projects rfl (k + 3)
  · rfl

/-- **A lookup without interruption** is the lookup of the server. -/
theorem run_inquire (s : Server) (projects : List Project) (key : String) :
    run projects 4 (s.inquire key, s) =
      ((s.inquire key).reach (.returned (s.lookupKey projects key).1),
        (s.lookupKey projects key).2) := by
  have hkey : (s.inquire key).key = key := rfl
  unfold Server.lookupKey
  cases hcached : s.cached? key with
  | none =>
    have hprogress : (s.inquire key).progress = .missed := by rw [Server.inquire, hcached]; rfl
    exact run_missed hprogress 2
  | some hit =>
    obtain ⟨id, n⟩ := hit
    have hprogress : (s.inquire key).progress = .hit id n := by rw [Server.inquire, hcached]; rfl
    rw [run_hit hprogress 0, hkey]
    dsimp only
    split
    · rfl
    · exact run_missed rfl 0

/-! ## What a lookup goes by -/

/-- As long as a lookup has not asked the registry for its key, it goes by what it found at the
beginning. -/
structure IsSound (l : Inquiry) : Prop where
  hit : ∀ id n, l.progress = .hit id n → l.cached = some (id, n)
  stale : ∀ current, l.progress = .stale current →
    ∃ id n, l.cached = some (id, n) ∧ ∀ p, current = some p → p.id = id

theorem isSound_inquire (s : Server) (key : String) : (s.inquire key).IsSound := by
  unfold Server.inquire
  cases hcached : s.cached? key with
  | none => exact ⟨nofun, nofun⟩
  | some hit =>
    refine ⟨fun id n hprogress => ?_, nofun⟩
    cases hprogress
    rfl

theorem IsSound.part (h : l.IsSound) (hpart : l.Part s l' s') : l'.IsSound := by
  cases hpart with
  | refute hprogress hcurrent =>
    refine ⟨nofun, fun current heq => ⟨_, _, h.hit _ _ hprogress, ?_⟩⟩
    cases heq
    exact hcurrent
  | confirm | evict | refuse | grant | accept => exact ⟨nofun, nofun⟩

/-- A lookup holds a stream if it found it at the beginning or returned it. -/
def Holds (l : Inquiry) (n : Nat) : Prop :=
  (∃ id, l.cached = some (id, n)) ∨ l.progress = .returned (some n)

/-- What a lookup holds at its beginning is in the index. -/
theorem exists_byId_of_holds_inquire (h : (s.inquire key).Holds n) :
    ∃ id, s.byId.get? id = some n := by
  have hcached : ∃ id, s.cached? key = some (id, n) := by
    rcases h with hcached | hreturned
    · exact hcached
    · unfold Server.inquire at hreturned
      cases hcached : s.cached? key with
      | none =>
        rw [hcached] at hreturned
        cases hreturned
      | some hit =>
        rw [hcached] at hreturned
        cases hreturned
  obtain ⟨id, hid⟩ := hcached
  obtain ⟨id', -, hn⟩ := Option.bind_eq_some_iff.1 hid
  obtain ⟨n', hn', heq⟩ := Option.map_eq_some_iff.1 hn
  cases heq
  exact ⟨id, hn'⟩

/-- What a lookup holds it held before, or it is in the index now. -/
theorem Part.holds (hpart : l.Part s l' s') (h : l.IsSound) (hn : l'.Holds n) :
    l.Holds n ∨ ∃ id, s.byId.get? id = some n := by
  rcases hn with hcached | hreturned
  · rw [hpart.frame.2.1] at hcached
    exact .inl (.inl hcached)
  · cases hpart with
    | confirm hprogress =>
      cases hreturned
      exact .inl (.inl ⟨_, h.hit _ n hprogress⟩)
    | accept =>
      have hfound : (s.accept _).1 = some n := Progress.returned.inj hreturned
      exact .inr ⟨_, (s.accept_fst _).symm.trans hfound⟩
    | refute | evict | refuse | grant => cases hreturned

end Inquiry

/-! ## Servers without streams -/

namespace Server

variable {s : Server} (hbyId : s.byId = .empty)

include hbyId

theorem cached?_of_byId_eq_empty (key : String) : s.cached? key = none := by
  unfold cached?
  cases s.byKey.get? key with
  | none => rfl
  | some id => rw [Option.bind_some, hbyId, KeyMap.get?_empty, Option.map_none]

theorem accept_of_byId_eq_empty (p : Project) : s.accept p = (none, s) := by
  unfold accept
  rw [hbyId, KeyMap.get?_empty]

/-- A server without streams finds nothing and learns nothing. -/
theorem lookupKey_of_byId_eq_empty (projects : List Project) (key : String) :
    s.lookupKey projects key = (none, s) := by
  rw [lookupKey, cached?_of_byId_eq_empty hbyId]
  unfold resolve
  cases Project.withKey? projects key with
  | none => rfl
  | some p => exact accept_of_byId_eq_empty hbyId p

end Server

namespace Inquiry

variable {l l' : Inquiry} {s s' : Server}

/-- What a lookup writes on a server without streams are the keys of the project that it had found
at its beginning. -/
theorem Part.known (hpart : l.Part s l' s') (hbyId : s.byId = .empty) (h : l.IsSound)
    {key id : String} (hkey : s'.byKey.get? key = some id) :
    s.byKey.get? key = some id ∨ l.progress.goesByHit = true ∧ ∃ n, l.cached = some (id, n) := by
  cases hpart with
  | confirm | refute | refuse | grant => exact .inl hkey
  | evict hprogress =>
    obtain ⟨id', n, hcached, hcurrent⟩ := h.stale _ hprogress
    rcases s.known_of_evict hkey with hold | ⟨p, hp, rfl⟩
    · exact .inl hold
    · rw [← hcurrent p hp] at hcached
      exact .inr ⟨hprogress ▸ rfl, n, hcached⟩
  | accept =>
    rw [Server.accept_of_byId_eq_empty hbyId] at hkey
    exact .inl hkey

/-- One that does not go by what it found writes nothing there. -/
theorem Part.server_eq (hpart : l.Part s l' s') (hbyId : s.byId = .empty)
    (hhit : l.progress.goesByHit = false) : s' = s := by
  cases hpart with
  | confirm | refute | refuse | grant => rfl
  | evict hprogress =>
    rw [hprogress] at hhit
    cases hhit
  | accept => rw [Server.accept_of_byId_eq_empty hbyId]

/-- A lookup that does not go by what the cache had and has not returned a stream. -/
structure IsVain (l : Inquiry) : Prop where
  goesByHit_eq : l.progress.goesByHit = false
  not_found : ∀ n, l.progress ≠ .returned (some n)

theorem isVain_inquire (hbyId : s.byId = .empty) (key : String) : (s.inquire key).IsVain := by
  unfold Server.inquire
  rw [Server.cached?_of_byId_eq_empty hbyId]
  exact ⟨rfl, nofun⟩

/-- **On a server without streams** a vain lookup stays vain and writes nothing. -/
theorem IsVain.part (h : l.IsVain) (hbyId : s.byId = .empty) (hpart : l.Part s l' s') :
    l'.IsVain ∧ s' = s := by
  refine ⟨⟨?_, fun n hn => ?_⟩, hpart.server_eq hbyId h.goesByHit_eq⟩
  · exact Bool.eq_false_iff.2 fun hhit =>
      absurd (h.goesByHit_eq.symm.trans (hpart.goesByHit hhit)) Bool.false_ne_true
  · have hhit := h.goesByHit_eq
    cases hpart with
    | confirm hprogress =>
      rw [hprogress] at hhit
      cases hhit
    | accept =>
      rw [Server.accept_of_byId_eq_empty hbyId] at hn
      cases hn
    | refute | evict | refuse | grant => cases hn

theorem IsVain.run (h : l.IsVain) (hbyId : s.byId = .empty) (projects : List Project) (k : Nat) :
    (run projects k (l, s)).1.IsVain ∧ (run projects k (l, s)).2 = s := by
  induction k generalizing l with
  | zero => exact ⟨h, rfl⟩
  | succ k ih =>
    rw [Inquiry.run]
    cases ht : l.proceed? s projects with
    | none => exact ⟨h, rfl⟩
    | some t =>
      obtain ⟨hvain, rfl⟩ := h.part hbyId (part_of_proceed? ht)
      exact ih hvain

end Inquiry

end FlagFanout
