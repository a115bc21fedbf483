import FlagFanout.Proofs.Server.Lookup
import FlagFanout.Proofs.Server.Surroundings
import Mathlib.Logic.Relation

/-!
# A server keeps its streams in order

A server starts streams, puts others in their place, forgets projects and caches access keys. What
must not happen on the way is that a stream is lost while it is still open, that a cached key leads
to a project without a stream, or that an engine goes on signalling to a stream that is gone.

Every operation of a server is a chain of a few kinds of `Serving.Chore`; a list of the streams that
left the index and are still to be closed goes with it, and is empty at the end. What every chore
keeps, every operation keeps: that the server is tidy (`Serving.IsTidy`), and that an engine which
others leave alone holds the subscriptions of its streams and no others (`Serving.IsBooked`).

A `Hosting` is a server among others who use the same fleet. `Hosting.in_order` says what holds of
it after any operations of the server and any acts of the others.
-/

namespace FlagFanout

namespace Serving

/-! ## Chores -/

/-- The smallest parts of what a server does, with the streams that left and are still to be
closed. -/
inductive Chore : Serving × List Nat → Serving × List Nat → Prop
  | spawn (v : Serving) (leaving : List Nat) (p : Project) :
    Chore (v, leaving) ((v.spawn p).2, leaving ++ (v.spawn p).1.toList)
  /-- The keys of a project that has a stream are made known. -/
  | index (v : Serving) (leaving : List Nat) {p : Project} {n : Nat}
    (hn : v.server.byId.get? p.id = some n) : Chore (v, leaving) (v.indexKeys p, leaving)
  | evict (v : Serving) (leaving : List Nat) (key : String) :
    Chore (v, leaving)
      ({ v with server := { v.server with byKey := v.server.byKey.erase key } }, leaving)
  | forget (v : Serving) (leaving : List Nat) (id : String) :
    Chore (v, leaving)
      ({ v with server := v.server.forget id }, leaving ++ (v.server.byId.get? id).toList)
  | close (v : Serving) (n : Nat) (leaving : List Nat) :
    Chore (v, n :: leaving) ({ v with fleet := v.fleet.close n }, leaving)

/-- Chores one after the other. -/
def Chores : Serving × List Nat → Serving × List Nat → Prop := Relation.ReflTransGen Chore

namespace Chores

variable {s s' s'' : Serving × List Nat} {v : Serving}

theorem refl (s : Serving × List Nat) : Chores s s := Relation.ReflTransGen.refl

theorem trans (h : Chores s s') (h' : Chores s' s'') : Chores s s'' :=
  Relation.ReflTransGen.trans h h'

theorem chore (h : Chore s s') : Chores s s' := Relation.ReflTransGen.single h

/-- What every chore keeps, chores in a row keep. -/
theorem induct (h : Chores s s') {P : Serving × List Nat → Prop}
    (hchore : ∀ {s s'}, Chore s s' → P s → P s') (hs : P s) : P s' := by
  induction h with
  | refl => exact hs
  | tail _ hlast ih => exact hchore hlast ih

theorem retire (v : Serving) (leaving : List Nat) : Chores (v, leaving) (v.retire leaving, []) := by
  induction leaving generalizing v with
  | nil => exact .refl _
  | cons n rest ih => exact (chore (.close v n rest)).trans (ih _)

/-- A project gets a stream and its keys are made known. -/
theorem spawnIndexed (v : Serving) (leaving : List Nat) (p : Project) :
    Chores (v, leaving) ((v.spawn p).2.indexKeys p, leaving ++ (v.spawn p).1.toList) := by
  have hn : (v.spawn p).2.server.byId.get? p.id = some v.fleet.nextSerial :=
    (KeyMap.get?_insert ..).trans (if_pos rfl)
  exact (chore (.spawn v leaving p)).trans (chore (.index _ _ hn))

theorem renew (v : Serving) (p : Project) : Chores (v, []) (v.renew p) := spawnIndexed v [] p

theorem replace (v : Serving) (p : Project) : Chores (v, []) (v.replace p, []) :=
  (renew v p).trans (retire ..)

theorem add (v : Serving) (p : Project) : Chores (v, []) (v.add p, []) := by
  unfold Serving.add
  cases hn : v.server.byId.get? p.id with
  | some n =>
    rw [KeyMap.contains, hn, Option.isSome_some, if_pos rfl]
    exact chore (.index v [] hn)
  | none =>
    have hprevious : (v.spawn p).1 = none := hn
    have hspawn := spawnIndexed v [] p
    rw [hprevious] at hspawn
    rw [KeyMap.contains, hn, Option.isSome_none, if_neg Bool.false_ne_true]
    exact hspawn

theorem release (v : Serving) (id : String) : Chores (v, []) (v.release id) :=
  chore (.forget v [] id)

theorem remove (v : Serving) (id : String) : Chores (v, []) (v.remove id, []) :=
  (release v id).trans (retire ..)

theorem apply (v : Serving) (projects : List Project) (e : MembershipEvent) :
    Chores (v, []) (v.apply projects e, []) := by
  cases e with
  | added id =>
    simp only [Serving.apply]
    cases Project.withId? projects id with
    | none => exact .refl _
    | some p => exact add v p
  | removed id => exact remove v id
  | replaced id =>
    simp only [Serving.apply]
    cases Project.withId? projects id with
    | none => exact remove v id
    | some p => exact replace v p

theorem align (v : Serving) (leaving : List Nat) (p : Project) :
    Chores (v, leaving) (Serving.align (v, leaving) p) := by
  have halign : Serving.align (v, leaving) p =
      if v.isCurrent p then (v.indexKeys p, leaving)
      else ((v.spawn p).2.indexKeys p, leaving ++ (v.spawn p).1.toList) := rfl
  rw [halign]
  cases hcurrent : v.isCurrent p with
  | true =>
    obtain ⟨s, hs, -⟩ := (Option.any_eq_true _ _).1 hcurrent
    obtain ⟨n, hn, -⟩ := Option.bind_eq_some_iff.1 hs
    exact chore (.index v leaving hn)
  | false => exact spawnIndexed v leaving p

theorem foldl_align (projects : List Project) (v : Serving) (leaving : List Nat) :
    Chores (v, leaving) (projects.foldl Serving.align (v, leaving)) := by
  induction projects generalizing v leaving with
  | nil => exact .refl _
  | cons p rest ih => exact (align v leaving p).trans (ih _ _)

/-- Several projects are forgotten, each with the stream it has. -/
theorem foldl_forget {gone : List (String × Nat)} (hkeys : gone.Pairwise fun e e' => e.1 ≠ e'.1)
    (hmem : ∀ e ∈ gone, v.server.byId.get? e.1 = some e.2) (leaving : List Nat) :
    Chores (v, leaving)
      ({ v with server := gone.foldl (fun s e => s.forget e.1) v.server },
        leaving ++ gone.map (·.2)) := by
  induction gone generalizing v leaving with
  | nil =>
    rw [List.map_nil, List.append_nil]
    exact .refl _
  | cons e rest ih =>
    obtain ⟨hfresh, hrest⟩ := List.pairwise_cons.1 hkeys
    have hforget := chore (.forget v leaving e.1)
    rw [hmem e List.mem_cons_self] at hforget
    have hchores := hforget.trans (ih (v := { v with server := v.server.forget e.1 }) hrest
      (fun e' he' => ?_) _)
    · rw [List.append_assoc] at hchores
      exact hchores
    · have hne : e'.1 ≠ e.1 := Ne.symm (hfresh e' he')
      exact ((KeyMap.get?_erase ..).trans (if_neg hne)).trans
        (hmem e' (List.mem_cons_of_mem _ he'))

theorem realign (v : Serving) (projects : List Project) :
    Chores (v, []) (v.realign projects) := by
  let gone := v.server.byId.toList.filter fun e => (Project.withId? projects e.1).isNone
  have hkeys : gone.Pairwise fun e e' => e.1 ≠ e'.1 :=
    v.server.byId.keys_ne.sublist List.filter_sublist
  have hmem : ∀ e ∈ gone, v.server.byId.get? e.1 = some e.2 := fun e he =>
    KeyMap.get?_eq_some_iff_mem.2 (List.mem_of_mem_filter he)
  -- the streams of forgotten projects wait first, behind them those that were replaced
  exact (foldl_forget hkeys hmem []).trans (foldl_align projects _ _)

theorem reconcile (v : Serving) (projects : List Project) :
    Chores (v, []) (v.reconcile projects, []) :=
  (realign v projects).trans (retire ..)

theorem foldl_replace (projects : List Project) (v : Serving) :
    Chores (v, []) (projects.foldl Serving.replace v, []) := by
  induction projects generalizing v with
  | nil => exact .refl _
  | cons p rest ih => exact (replace v p).trans (ih _)

/-- A project to which the registry gave a key is found, and its keys are made known. -/
theorem accept (v : Serving) (p : Project) :
    Chores (v, []) ({ v with server := (v.server.accept p).2 }, []) := by
  unfold Server.accept
  cases hn : v.server.byId.get? p.id with
  | none => exact .refl _
  | some n => exact chore (.index v [] hn)

theorem resolve (v : Serving) (projects : List Project) (key : String) :
    Chores (v, []) ({ v with server := (v.server.resolve projects key).2 }, []) := by
  unfold Server.resolve
  cases Project.withKey? projects key with
  | none => exact .refl _
  | some p => exact accept v p

theorem lookupKey (v : Serving) (projects : List Project) (key : String) :
    Chores (v, []) ({ v with server := (v.server.lookupKey projects key).2 }, []) := by
  unfold Server.lookupKey
  cases hcached : v.server.cached? key with
  | none => exact resolve v projects key
  | some hit =>
    obtain ⟨id, n⟩ := hit
    obtain ⟨id', -, hrest⟩ := Option.bind_eq_some_iff.1 hcached
    obtain ⟨n', hn, heq⟩ := Option.map_eq_some_iff.1 hrest
    cases heq
    dsimp only
    split
    · exact .refl _
    · let evicted : Serving :=
        { v with server := v.server.evict key (Project.withId? projects id) }
      have hevict : Chores (v, []) (evicted, []) := by
        simp only [evicted]
        cases hp : Project.withId? projects id with
        | none => exact chore (.evict v [] key)
        | some p =>
          obtain ⟨-, rfl⟩ := Project.withId?_some hp
          exact chore (.index v [] hn)
      exact hevict.trans (resolve evicted projects key)

end Chores

/-! ## Tidy servers -/

section Lookups

variable (v : Serving) (p : Project)

theorem byId_spawn (id : String) : (v.spawn p).2.server.byId.get? id =
    if id = p.id then some v.fleet.nextSerial else v.server.byId.get? id := KeyMap.get?_insert ..

theorem byId_forget (id id' : String) : (v.server.forget id).byId.get? id' =
    if id' = id then none else v.server.byId.get? id' := KeyMap.get?_erase ..

end Lookups

/-- One stream is not that of two projects. -/
theorem IsHoused.id_eq {v : Serving} (h : v.IsHoused) {id id' : String} {n : Nat}
    (hn : v.server.byId.get? id = some n) (hn' : v.server.byId.get? id' = some n) : id = id' := by
  obtain ⟨s, hs, hid⟩ := h.housed id n hn
  obtain ⟨s', hs', hid'⟩ := h.housed id' n hn'
  rw [hs] at hs'
  cases hs'
  exact hid.symm.trans hid'

theorem IsHoused.lt_nextSerial {v : Serving} (h : v.IsHoused) {id : String} {n : Nat}
    (hn : v.server.byId.get? id = some n) : n < v.fleet.nextSerial := by
  obtain ⟨s, hs, -⟩ := h.housed id n hn
  exact Fleet.lt_nextSerial hs

/-- Nothing of a server is lost: of the streams that it started, which are those of no guest, the
ones that left are closed or are still to be closed, and the engines have forgotten those that are
closed. -/
structure IsTidy (guests : List Nat) (v : Serving) (leaving : List Nat) : Prop where
  housed : v.IsHoused
  guests_lt : ∀ n ∈ guests, n < v.fleet.nextSerial
  /-- A cached key leads to a project that has a stream. -/
  known : ∀ key id, v.server.byKey.get? key = some id → ∃ n, v.server.byId.get? id = some n
  left : ∀ n ∈ leaving, n < v.fleet.nextSerial ∧ ∀ id, v.server.byId.get? id ≠ some n
  closed : ∀ n s, v.fleet.stream? n = some s → n ∉ guests →
    (∀ id, v.server.byId.get? id ≠ some n) → n ∉ leaving → s.closed = true
  serves : ∀ name n, n ∉ guests → (v.fleet.engine name).signals.Serves (.stream n) →
    ∃ s, v.fleet.stream? n = some s ∧ s.engine = name ∧ s.closed = false

namespace IsTidy

variable {guests leaving : List Nat} {v : Serving}

/-- The fleet grows older around a server. -/
theorem ages (h : v.IsTidy guests leaving) {f : Fleet} (hages : v.fleet.Ages f) :
    IsTidy guests { v with fleet := f } leaving where
  housed := (h.housed.withFleet hages.numbered hages.keeps).housed
  guests_lt n hn := hages.next_eq ▸ h.guests_lt n hn
  known := h.known
  left n hn := ⟨hages.next_eq ▸ (h.left n hn).1, (h.left n hn).2⟩
  closed n s' hs' hguest hindex hleaving := by
    have hlt : n < v.fleet.nextSerial := hages.next_eq ▸ Fleet.lt_nextSerial hs'
    have hs : v.fleet.stream? n = some v.fleet.streams[n] := List.getElem?_eq_getElem hlt
    exact hages.closed n _ s' hs hs' (h.closed n _ hs hguest hindex hleaving)
  serves name n hguest hserved := by
    obtain ⟨hold, hsame⟩ := hages.serves name n hserved
    obtain ⟨s, hs, hname, hopen⟩ := h.serves name n hguest hold
    obtain ⟨s', hs', -, hengine⟩ := hages.keeps n s hs
    exact ⟨s', hs', hengine.trans hname, (hsame s s' hs hs' hname).trans hopen⟩

/-- Whatever is written into the cache leads to projects that have a stream. -/
theorem withCache (h : v.IsTidy guests leaving) {byKey : KeyMap String String}
    (hknown : ∀ key id, byKey.get? key = some id → ∃ n, v.server.byId.get? id = some n) :
    IsTidy guests { v with server := { v.server with byKey } } leaving :=
  ⟨⟨h.housed.numbered, h.housed.housed⟩, h.guests_lt, hknown, h.left, h.closed, h.serves⟩

theorem indexKeys (h : v.IsTidy guests leaving) {p : Project} {n : Nat}
    (hn : v.server.byId.get? p.id = some n) : IsTidy guests (v.indexKeys p) leaving := by
  refine h.withCache fun key id hkey => ?_
  rcases v.server.known_of_indexKeys hkey with rfl | hold
  · exact ⟨n, hn⟩
  · exact h.known key id hold

theorem spawn (h : v.IsTidy guests leaving) (p : Project) :
    IsTidy guests (v.spawn p).2 (leaving ++ (v.spawn p).1.toList) := by
  have hbyId := v.byId_spawn p
  have hstream := v.fleet.stream?_spawn p.id p.engine v.server.config
  have hnext : (v.spawn p).2.fleet.nextSerial = v.fleet.nextSerial + 1 :=
    v.fleet.nextSerial_spawn ..
  have hprevious : ∀ n, n ∈ (v.spawn p).1.toList ↔ v.server.byId.get? p.id = some n :=
    fun n => Option.mem_toList
  refine
    { housed := (h.housed.goesTo_spawn p).housed
      guests_lt := fun n hn => hnext ▸ Nat.lt_succ_of_lt (h.guests_lt n hn)
      known := fun key id hkey => ?_
      left := fun n hn => ?_
      closed := fun n s hs hguest hindex hleaving => ?_
      serves := fun name n hguest hserved => ?_ }
  · obtain ⟨n, hn⟩ := h.known key id hkey
    rw [hbyId]
    split
    · exact ⟨_, rfl⟩
    · exact ⟨n, hn⟩
  · -- the stream that the project had leaves, and no other project has it
    have hout : n < v.fleet.nextSerial ∧
        ∀ id, id ≠ p.id → v.server.byId.get? id ≠ some n := by
      rcases List.mem_append.1 hn with hold | hnew
      · exact ⟨(h.left n hold).1, fun id _ => (h.left n hold).2 id⟩
      · have hid := (hprevious n).1 hnew
        exact ⟨h.housed.lt_nextSerial hid, fun id hne hid' => hne (h.housed.id_eq hid' hid)⟩
    refine ⟨hnext ▸ Nat.lt_succ_of_lt hout.1, fun id hid => ?_⟩
    rw [hbyId] at hid
    split at hid
    · cases hid
      exact Nat.lt_irrefl _ hout.1
    · next hne => exact hout.2 id hne hid
  · have hparts := not_or.1 (mt List.mem_append.2 hleaving)
    have hs' := (hstream n).symm.trans hs
    split at hs'
    · next hnew =>
      exact absurd ((hbyId p.id).trans (by rw [if_pos rfl, hnew])) (hindex p.id)
    · refine h.closed n s hs' hguest (fun id hid => ?_) hparts.1
      by_cases heq : id = p.id
      · exact hparts.2 ((hprevious n).2 (heq ▸ hid))
      · exact hindex id ((hbyId id).trans ((if_neg heq).trans hid))
  · have hold : ∀ s, v.fleet.stream? n = some s → (v.spawn p).2.fleet.stream? n = some s :=
      fun s hs => (hstream n).trans ((if_neg (Nat.ne_of_lt (Fleet.lt_nextSerial hs))).trans hs)
    rcases Fleet.serves_of_spawn hserved with ⟨rfl, rfl⟩ | hserved
    · exact ⟨_, (hstream _).trans (if_pos rfl), rfl, rfl⟩
    · obtain ⟨s, hs, hrest⟩ := h.serves name n hguest hserved
      exact ⟨s, hold s hs, hrest⟩

theorem forget (h : v.IsTidy guests leaving) (id : String) :
    IsTidy guests { v with server := v.server.forget id }
      (leaving ++ (v.server.byId.get? id).toList) := by
  have hbyId := v.byId_forget id
  refine
    { housed := (h.housed.goesTo_forget id).housed
      guests_lt := h.guests_lt
      known := fun key id' hkey => ?_
      left := fun n hn => ?_
      closed := fun n s hs hguest hindex hleaving => ?_
      serves := h.serves }
  · obtain ⟨hkey, hne⟩ := KeyMap.get?_filter_eq_some_iff.1 hkey
    obtain ⟨n, hn⟩ := h.known key id' hkey
    exact ⟨n, (hbyId id').trans ((if_neg (of_decide_eq_true hne)).trans hn)⟩
  · rcases List.mem_append.1 hn with hold | hnew
    · refine ⟨(h.left n hold).1, fun id' hid' => ?_⟩
      rw [hbyId] at hid'
      split at hid'
      · cases hid'
      · exact (h.left n hold).2 id' hid'
    · have hid : v.server.byId.get? id = some n := Option.mem_toList.1 hnew
      refine ⟨h.housed.lt_nextSerial hid, fun id' hid' => ?_⟩
      rw [hbyId] at hid'
      split at hid'
      · cases hid'
      · next hne => exact hne (h.housed.id_eq hid' hid)
  · have hparts := not_or.1 (mt List.mem_append.2 hleaving)
    refine h.closed n s hs hguest (fun id' hid' => ?_) hparts.1
    by_cases heq : id' = id
    · exact hparts.2 (Option.mem_toList.2 (heq ▸ hid'))
    · exact hindex id' ((hbyId id').trans ((if_neg heq).trans hid'))

theorem close {n : Nat} (h : v.IsTidy guests (n :: leaving)) :
    IsTidy guests { v with fleet := v.fleet.close n } leaving := by
  have hages := h.ages (Fleet.ages_close h.housed.numbered n)
  refine
    { housed := hages.housed
      guests_lt := hages.guests_lt
      known := hages.known
      left := fun k hk => hages.left k (List.mem_cons_of_mem _ hk)
      closed := fun k s hs hguest hindex hleaving => ?_
      serves := hages.serves }
  by_cases heq : k = n
  · subst heq
    have hlt : k < v.fleet.nextSerial := (h.left k List.mem_cons_self).1
    have hold : v.fleet.stream? k = some v.fleet.streams[k] := List.getElem?_eq_getElem hlt
    have hclose := (Fleet.close_of_stream? h.housed.numbered hold).1 k
    rw [if_pos rfl] at hclose
    cases hclose.symm.trans hs
    rfl
  · exact hages.closed k s hs hguest hindex (by simp [heq, hleaving])

/-- **Every chore leaves a server tidy.** -/
theorem chore {s s' : Serving × List Nat} (hchore : Chore s s') (h : IsTidy guests s.1 s.2) :
    IsTidy guests s'.1 s'.2 := by
  cases hchore with
  | spawn v leaving p => exact h.spawn p
  | index v leaving hn => exact h.indexKeys hn
  | evict v leaving key =>
    refine h.withCache fun key' id hkey => ?_
    rw [KeyMap.get?_erase] at hkey
    split at hkey
    · cases hkey
    · exact h.known key' id hkey
  | forget v leaving id => exact h.forget id
  | close v n leaving => exact h.close

/-- Others start a stream. -/
theorem guest (h : v.IsTidy guests leaving) (project engineName : String) (config : StreamConfig) :
    IsTidy (guests ++ [v.fleet.nextSerial])
      { v with fleet := v.fleet.spawn project engineName config } leaving := by
  have hstream := v.fleet.stream?_spawn project engineName config
  have hnext := v.fleet.nextSerial_spawn project engineName config
  have hother : ∀ {n}, n ∉ guests ++ [v.fleet.nextSerial] → n ∉ guests ∧ n ≠ v.fleet.nextSerial :=
    fun hn => ⟨fun hold => hn (List.mem_append_left _ hold), fun hnew => hn (by simp [hnew])⟩
  obtain ⟨hnumbered, hkeeps⟩ := h.housed.numbered.spawn project engineName config
  refine
    { housed := (h.housed.withFleet hnumbered hkeeps).housed
      guests_lt := fun n hn => ?_
      known := h.known
      left := fun n hn => ⟨hnext ▸ Nat.lt_succ_of_lt (h.left n hn).1, (h.left n hn).2⟩
      closed := fun n s hs hguest hindex hleaving => ?_
      serves := fun name n hguest hserved => ?_ }
  · rw [hnext]
    rcases List.mem_append.1 hn with hold | hnew
    · exact Nat.lt_succ_of_lt (h.guests_lt n hold)
    · rw [List.mem_singleton.1 hnew]
      exact Nat.lt_succ_self _
  · obtain ⟨hguest', hne⟩ := hother hguest
    exact h.closed n s (((hstream n).trans (if_neg hne)).symm.trans hs) hguest' hindex hleaving
  · obtain ⟨hguest', hne⟩ := hother hguest
    rcases Fleet.serves_of_spawn hserved with ⟨hnew, -⟩ | hserved
    · exact absurd hnew hne
    · obtain ⟨s, hs, hrest⟩ := h.serves name n hguest' hserved
      exact ⟨s, (hstream n).trans ((if_neg hne).trans hs), hrest⟩

end IsTidy

/-! ## Engines that others leave alone -/

/-- The streams that run on an engine are all that subscribes to it, each once and as long as it is
open; those of the server are open as long as it has them. -/
structure IsBooked (name : String) (guests : List Nat) (v : Serving) : Prop where
  allListen : (v.fleet.engine name).signals.AllListen
  nodup : (v.fleet.engine name).signals.subscribers.Nodup
  own : ∀ who, (v.fleet.engine name).signals.Serves who → ∃ n, n ∉ guests ∧ who = .stream n
  serves : ∀ n s, v.fleet.stream? n = some s → s.engine = name → s.closed = false →
    (v.fleet.engine name).signals.Serves (.stream n)
  isOpen : ∀ id n s, v.server.byId.get? id = some n → v.fleet.stream? n = some s →
    s.engine = name → s.closed = false

namespace IsBooked

variable {name : String} {guests leaving : List Nat} {v : Serving}

/-- Others do something that spares the engine. -/
theorem spares (h : v.IsBooked name guests) {f : Fleet} (hspares : v.fleet.Spares f name) :
    IsBooked name guests { v with fleet := f } where
  allListen := hspares.thins.allListen
  nodup := h.nodup.sublist hspares.thins.sublist
  own who hserved := by
    rw [← Signals.mem_subscribers_iff] at hserved
    exact h.own who ((Signals.mem_subscribers_iff ..).1 (hspares.thins.sublist.subset hserved))
  serves n s' hs' hname hopen := by
    obtain ⟨s, hs, hsname, hclosed⟩ := hspares.stream n s' hs' hname
    exact hspares.thins.serves n (h.serves n s hs hsname (hclosed.trans hopen))
  isOpen id n s' hn hs' hname := by
    obtain ⟨s, hs, hsname, hclosed⟩ := hspares.stream n s' hs' hname
    exact hclosed.symm.trans (h.isOpen id n s hn hs hsname)

/-- The server starts a stream, on the engine or elsewhere. -/
theorem spawn (h : v.IsBooked name guests) (htidy : v.IsTidy guests leaving) (p : Project) :
    IsBooked name guests (v.spawn p).2 := by
  have hbyId := v.byId_spawn p
  have hstream := v.fleet.stream?_spawn p.id p.engine v.server.config
  have hold : ∀ {n s}, n ≠ v.fleet.nextSerial → (v.spawn p).2.fleet.stream? n = some s →
      v.fleet.stream? n = some s := fun hne hs => ((hstream _).trans (if_neg hne)).symm.trans hs
  have hnew : ∀ {s}, (v.spawn p).2.fleet.stream? v.fleet.nextSerial = some s →
      s.engine = p.engine ∧ s.closed = false := by
    intro s hs
    cases ((hstream _).trans (if_pos rfl)).symm.trans hs
    exact ⟨rfl, rfl⟩
  -- a stream that the server has is the new one or one that it had
  have hopen : ∀ id n s, (v.spawn p).2.server.byId.get? id = some n →
      (v.spawn p).2.fleet.stream? n = some s → s.engine = name → s.closed = false := by
    intro id n s hn hs hname
    rw [hbyId] at hn
    split at hn
    · cases hn
      exact (hnew hs).2
    · exact h.isOpen id n s hn (hold (Nat.ne_of_lt (htidy.housed.lt_nextSerial hn)) hs) hname
  by_cases hengine : p.engine = name
  · subst hengine
    have hsignals : ((v.spawn p).2.fleet.engine p.engine).signals =
        (v.fleet.engine p.engine).signals.subscribe (.stream v.fleet.nextSerial) :=
      congrArg Engine.signals ((v.fleet.engine_spawn p.id p.engine v.server.config p.engine).trans
        (if_pos rfl))
    refine ⟨?_, ?_, fun who hserved => ?_, fun n s hs hname hclosed => ?_, hopen⟩
    · rw [hsignals]
      exact h.allListen.subscribe _
    · rw [hsignals]
      exact Signals.nodup_subscribe _ h.nodup
    · rw [hsignals, Signals.serves_subscribe_iff] at hserved
      rcases hserved with hserved | rfl
      · exact h.own who hserved
      · exact ⟨_, fun hguest => Nat.lt_irrefl _ (htidy.guests_lt _ hguest), rfl⟩
    · rw [hsignals, Signals.serves_subscribe_iff]
      by_cases hne : n = v.fleet.nextSerial
      · exact .inr (congrArg _ hne)
      · exact .inl (h.serves n s (hold hne hs) hname hclosed)
  · have hspares := (Fleet.Stir.spawn (f := v.fleet) p.id p.engine v.server.config).spares
      htidy.housed.numbered h.allListen (decide_eq_true hengine)
    have hbooked := h.spares hspares
    exact ⟨hbooked.allListen, hbooked.nodup, hbooked.own, hbooked.serves, hopen⟩

/-- A stream that left is closed. -/
theorem close {n : Nat} (h : v.IsBooked name guests) (htidy : v.IsTidy guests (n :: leaving)) :
    IsBooked name guests { v with fleet := v.fleet.close n } := by
  cases hs : v.fleet.stream? n with
  | none =>
    rw [Fleet.close_of_stream?_eq_none hs]
    exact h
  | some s =>
    obtain ⟨hstream, hengine⟩ := Fleet.close_of_stream? htidy.housed.numbered hs
    -- what is open now is another stream, and was open before
    have hold : ∀ {k t}, (v.fleet.close n).stream? k = some t → t.closed = false →
        k ≠ n ∧ v.fleet.stream? k = some t := by
      intro k t ht hclosed
      rw [hstream] at ht
      split at ht
      · cases ht
        cases hclosed
      · next hne => exact ⟨hne, ht⟩
    have hopen : ∀ id k t, v.server.byId.get? id = some k →
        (v.fleet.close n).stream? k = some t → t.engine = name → t.closed = false := by
      intro id k t hk ht hname
      have hne : k ≠ n := fun heq => (htidy.left n List.mem_cons_self).2 id (heq ▸ hk)
      exact h.isOpen id k t hk (((hstream k).trans (if_neg hne)).symm.trans ht) hname
    by_cases hcond : name = s.engine ∧ s.closed = false
    · have hsignals : ((v.fleet.close n).engine name).signals =
          (v.fleet.engine name).signals.unsubscribe (.stream n) :=
        congrArg Engine.signals ((hengine name).trans (if_pos hcond))
      refine ⟨?_, ?_, fun who hserved => ?_, fun k t ht hname hclosed => ?_, hopen⟩
      · exact hsignals ▸ h.allListen.unsubscribe _
      · rw [hsignals, Signals.subscribers_unsubscribe]
        exact h.nodup.filter _
      · rw [hsignals, Signals.serves_unsubscribe_iff] at hserved
        exact h.own who hserved.1
      · obtain ⟨hne, ht'⟩ := hold ht hclosed
        rw [hsignals, Signals.serves_unsubscribe_iff]
        exact ⟨h.serves k t ht' hname hclosed, by simp [hne]⟩
    · have hsignals : ((v.fleet.close n).engine name).signals = (v.fleet.engine name).signals :=
        congrArg Engine.signals ((hengine name).trans (if_neg hcond))
      refine ⟨hsignals ▸ h.allListen, hsignals ▸ h.nodup, hsignals ▸ h.own,
        fun k t ht hname hclosed => ?_, hopen⟩
      obtain ⟨-, ht'⟩ := hold ht hclosed
      rw [hsignals]
      exact h.serves k t ht' hname hclosed

/-- **Every chore leaves the books of an engine right.** -/
theorem chore {s s' : Serving × List Nat} (hchore : Chore s s') (htidy : IsTidy guests s.1 s.2)
    (h : IsBooked name guests s.1) : IsBooked name guests s'.1 := by
  cases hchore with
  | spawn v leaving p => exact h.spawn htidy p
  | index v leaving hn => exact ⟨h.allListen, h.nodup, h.own, h.serves, h.isOpen⟩
  | evict v leaving key => exact ⟨h.allListen, h.nodup, h.own, h.serves, h.isOpen⟩
  | forget v leaving id =>
    refine ⟨h.allListen, h.nodup, h.own, h.serves, fun id' n s hn hs => ?_⟩
    rw [byId_forget] at hn
    split at hn
    · cases hn
    · exact h.isOpen id' n s hn hs
  | close v n leaving => exact h.close htidy

end IsBooked

end Serving

/-! ## Servers among others -/

/-- A fleet as it is found: every stream stands at its serial number, and no engine holds a
subscription of a stream that does not exist yet. -/
structure Fleet.IsSound (f : Fleet) : Prop where
  numbered : f.Numbered
  serves_lt : ∀ name n, (f.engine name).signals.Serves (.stream n) → n < f.nextSerial

/-- Nobody subscribes to an engine, and no stream runs on it. -/
structure Fleet.IsVacant (f : Fleet) (name : String) : Prop where
  unsubscribed : (f.engine name).signals.subscriberCount = 0
  unused : ∀ n s, f.stream? n = some s → s.engine ≠ name

/-- A fleet in which nothing was started yet. -/
theorem Fleet.isSound_empty (digest : List UInt8 → UInt64) : IsSound ⟨.empty, [], digest⟩ where
  numbered n s hs := by cases hs
  serves_lt name n hserved := by
    obtain ⟨feed, hfeed, -⟩ := hserved
    cases hfeed

theorem Fleet.isVacant_empty (digest : List UInt8 → UInt64) (name : String) :
    IsVacant ⟨.empty, [], digest⟩ name where
  unsubscribed := rfl
  unused n s hs := by cases hs

/-- A server without streams is tidy, and all streams of the fleet are those of others. -/
theorem Fleet.IsSound.isTidy {f : Fleet} (h : f.IsSound) (config : StreamConfig)
    (receiver : Option Nat) :
    Serving.IsTidy (List.range f.nextSerial) ⟨.ofConfig config receiver, f⟩ [] where
  housed := ⟨h.numbered, fun _ _ hn => nomatch hn⟩
  guests_lt _ hn := List.mem_range.1 hn
  known _ _ hkey := nomatch hkey
  left _ hn := nomatch hn
  closed _ _ hs hguest _ _ := absurd (List.mem_range.2 (lt_nextSerial hs)) hguest
  serves name n hguest hserved :=
    absurd (List.mem_range.2 (h.serves_lt name n hserved)) hguest

theorem Fleet.IsVacant.isBooked {f : Fleet} {name : String} (h : f.IsVacant name)
    (guests : List Nat) (server : Server) : Serving.IsBooked name guests ⟨server, f⟩ := by
  have hnobody : ∀ who, ¬ (f.engine name).signals.Serves who := by
    intro who hserved
    have hlength := (f.engine name).signals.length_subscribers.trans h.unsubscribed
    rw [← Signals.mem_subscribers_iff, List.length_eq_zero_iff.1 hlength] at hserved
    cases hserved
  have hnil : (f.engine name).signals.subscribers = [] :=
    List.eq_nil_iff_forall_not_mem.2 fun who hwho =>
      hnobody who ((Signals.mem_subscribers_iff ..).1 hwho)
  exact
    { allListen := fun feed hfeed hsubscribed => absurd ⟨feed, hfeed, rfl, hsubscribed⟩ (hnobody _)
      nodup := hnil ▸ List.nodup_nil
      own := fun who hserved => absurd hserved (hnobody who)
      serves := fun n s hs hname => absurd hname (h.unused n s hs)
      isOpen := fun _ n s _ hs hname => absurd hname (h.unused n s hs) }

/-- A server and others who use the same fleet. -/
structure Hosting where
  serving : Serving
  /-- The serial numbers of the streams that others started. -/
  guests : List Nat

namespace Hosting

/-- A new server over the projects of a registry. -/
def start (projects : List Project) (config : StreamConfig) (receiver : Option Nat)
    (fleet : Fleet) : Hosting :=
  ⟨.start projects config receiver fleet, List.range fleet.nextSerial⟩

/-- What can happen. Whatever the server asks its registry, that answers with some projects. -/
inductive Act where
  /-- The server applies a membership event. -/
  | apply (projects : List Project) (e : MembershipEvent)
  /-- The server brings itself in line with its registry. -/
  | reconcile (projects : List Project)
  /-- A client looks an access key up. -/
  | lookup (projects : List Project) (key : String)
  /-- Others do something with the fleet. -/
  | other (a : Fleet.Act)

/-- The hosting after an act of others; `none` where it has to wait or there is nothing to do. -/
def other? (w : Hosting) (a : Fleet.Act) : Option Hosting :=
  (w.serving.fleet.act? a).map fun fleet =>
    ⟨{ w.serving with fleet }, w.guests ++ a.started w.serving.fleet⟩

/-- One act; `none` where it has to wait or there is nothing to do. -/
def act? (w : Hosting) : Act → Option Hosting
  | .apply projects e => some { w with serving := w.serving.apply projects e }
  | .reconcile projects => some { w with serving := w.serving.reconcile projects }
  | .lookup projects key =>
    let server := (w.serving.server.lookupKey projects key).2
    some { w with serving := { w.serving with server } }
  | .other a => w.other? a

/-- Whether an act leaves an engine to the streams that run on it. What the server does always
does. -/
def Act.spares (name : String) : Act → Bool
  | .other a => a.spares name
  | _ => true

variable {w w' : Hosting} {leaving : List Nat}

/-- What a server does is chores, and nothing is left to be closed at the end. -/
theorem chores_of_act? {a : Act} (h : w.act? a = some w') :
    w'.guests = w.guests ∧ Serving.Chores (w.serving, []) (w'.serving, []) ∨
      ∃ a', a = .other a' ∧ w.other? a' = some w' := by
  cases a with
  | apply projects e =>
    cases h
    exact .inl ⟨rfl, .apply w.serving projects e⟩
  | reconcile projects =>
    cases h
    exact .inl ⟨rfl, .reconcile w.serving projects⟩
  | lookup projects key =>
    cases h
    exact .inl ⟨rfl, .lookupKey w.serving projects key⟩
  | other a => exact .inr ⟨a, rfl, h⟩

/-! ### What every act keeps -/

/-- Others leave a server tidy. -/
theorem isTidy_other (h : w.serving.IsTidy w.guests leaving) {a : Fleet.Act}
    (hother : w.other? a = some w') : w'.serving.IsTidy w'.guests leaving := by
  obtain ⟨f, hf, rfl⟩ := Option.map_eq_some_iff.1 hother
  rcases (Fleet.stir_of_act? hf).ages h.housed.numbered with
    ⟨hstarted, hages⟩ | ⟨project, engineName, config, hstarted, rfl⟩
  · rw [hstarted, List.append_nil]
    exact h.ages hages
  · rw [hstarted]
    exact h.guest project engineName config

theorem isTidy_act (h : w.serving.IsTidy w.guests []) {a : Act} (hact : w.act? a = some w') :
    w'.serving.IsTidy w'.guests [] := by
  rcases chores_of_act? hact with ⟨hguests, hchores⟩ | ⟨a', rfl, hother⟩
  · rw [hguests]
    exact hchores.induct (P := fun s => s.1.IsTidy w.guests s.2) Serving.IsTidy.chore h
  · exact isTidy_other h hother

/-- Others who spare an engine leave its books right. -/
theorem isBooked_other {name : String} (htidy : w.serving.IsTidy w.guests leaving)
    (h : w.serving.IsBooked name w.guests) {a : Fleet.Act} (hspares : a.spares name = true)
    (hother : w.other? a = some w') : w'.serving.IsBooked name w'.guests := by
  obtain ⟨f, hf, rfl⟩ := Option.map_eq_some_iff.1 hother
  have hrest := (Fleet.stir_of_act? hf).spares htidy.housed.numbered h.allListen hspares
  refine { h.spares hrest with own := fun who hserved => ?_ }
  rw [← Signals.mem_subscribers_iff] at hserved
  have hold := (Signals.mem_subscribers_iff ..).1 (hrest.thins.sublist.subset hserved)
  obtain ⟨n, hguest, rfl⟩ := h.own who hold
  obtain ⟨s, hs, -⟩ := htidy.serves name n hguest hold
  refine ⟨n, fun hn => ?_, rfl⟩
  rcases List.mem_append.1 hn with hmem | hnew
  · exact hguest hmem
  · exact Nat.ne_of_lt (Fleet.lt_nextSerial hs) (Fleet.Act.eq_of_mem_started hnew)

theorem isBooked_act {name : String} (htidy : w.serving.IsTidy w.guests [])
    (h : w.serving.IsBooked name w.guests) {a : Act} (hspares : a.spares name = true)
    (hact : w.act? a = some w') : w'.serving.IsBooked name w'.guests := by
  rcases chores_of_act? hact with ⟨hguests, hchores⟩ | ⟨a', rfl, hother⟩
  · rw [hguests]
    exact (hchores.induct (P := fun s => s.1.IsTidy w.guests s.2 ∧ s.1.IsBooked name w.guests)
      (fun hchore hs => ⟨hs.1.chore hchore, hs.2.chore hchore hs.1⟩) ⟨htidy, h⟩).2
  · exact isBooked_other htidy h hspares hother

/-! ### Runs -/

section Start

variable {fleet : Fleet} (hfleet : fleet.IsSound) (projects : List Project) (config : StreamConfig)
  (receiver : Option Nat)

include hfleet

theorem isTidy_start : (start projects config receiver fleet).serving.IsTidy
    (start projects config receiver fleet).guests [] :=
  (Serving.Chores.foldl_replace projects _).induct
    (P := fun s => s.1.IsTidy (List.range fleet.nextSerial) s.2) Serving.IsTidy.chore
    (hfleet.isTidy config receiver)

theorem isBooked_start {name : String} (hvacant : fleet.IsVacant name) :
    (start projects config receiver fleet).serving.IsBooked name
      (start projects config receiver fleet).guests :=
  ((Serving.Chores.foldl_replace projects _).induct
    (P := fun s => s.1.IsTidy (List.range fleet.nextSerial) s.2 ∧
      s.1.IsBooked name (List.range fleet.nextSerial))
    (fun hchore hs => ⟨hs.1.chore hchore, hs.2.chore hchore hs.1⟩)
    ⟨hfleet.isTidy config receiver, hvacant.isBooked _ _⟩).2

end Start

theorem isBooked_acts {name : String} (htidy : w.serving.IsTidy w.guests [])
    (h : w.serving.IsBooked name w.guests) {acts : List Act}
    (hspares : ∀ a ∈ acts, a.spares name = true) (hacts : acts.foldlM act? w = some w') :
    w'.serving.IsBooked name w'.guests := by
  induction acts generalizing w with
  | nil =>
    cases hacts
    exact h
  | cons a rest ih =>
    rw [List.foldlM_cons] at hacts
    obtain ⟨next, hnext, hrest⟩ := Option.bind_eq_some_iff.1 hacts
    exact ih (isTidy_act htidy hnext)
      (isBooked_act htidy h (hspares a List.mem_cons_self) hnext)
      (fun a' ha' => hspares a' (List.mem_cons_of_mem _ ha')) hrest

/-! ### Order -/

/-- No stream is lost and no cached key leads astray. -/
structure IsInOrder (w : Hosting) : Prop where
  /-- Every stream that the server has for a project is of that project. -/
  project_eq : ∀ id n, w.serving.server.byId.get? id = some n →
    ∃ s, w.serving.fleet.stream? n = some s ∧ s.project = id
  /-- Every stream that the server ever started and does not have any more is closed. -/
  closed : ∀ n s, w.serving.fleet.stream? n = some s → n ∉ w.guests →
    n ∉ w.serving.server.byId.values → s.closed = true
  /-- Every cached key leads to a project that has a stream. -/
  known : ∀ key id, w.serving.server.byKey.get? key = some id →
    w.serving.server.byId.contains id = true

/-- The streams of the server that run on an engine. -/
def tenants (w : Hosting) (name : String) : List Nat :=
  w.serving.server.byId.values.filter fun n => (w.serving.fleet.stream? n).any (·.engine = name)

theorem isInOrder (h : w.serving.IsTidy w.guests []) : w.IsInOrder where
  project_eq := h.housed.housed
  closed n s hs hguest hindex := by
    refine h.closed n s hs hguest (fun id hid => ?_) List.not_mem_nil
    exact hindex (KeyMap.mem_values_iff.2 ⟨id, hid⟩)
  known key id hkey := by
    obtain ⟨n, hn⟩ := h.known key id hkey
    rw [KeyMap.contains, hn]
    rfl

/-- No two projects have one stream. -/
theorem nodup_values (h : w.serving.IsHoused) : w.serving.server.byId.values.Nodup := by
  refine List.pairwise_map.2 (List.Pairwise.imp_of_mem (fun {e e'} he he' hne heq => hne ?_)
    w.serving.server.byId.keys_ne)
  have hn : w.serving.server.byId.get? e.1 = some e'.2 :=
    KeyMap.get?_eq_some_iff_mem.2 (heq ▸ he)
  exact h.id_eq hn (KeyMap.get?_eq_some_iff_mem.2 he')

theorem subscriberCount_eq {name : String} (htidy : w.serving.IsTidy w.guests [])
    (h : w.serving.IsBooked name w.guests) :
    (w.serving.fleet.engine name).signals.subscriberCount = (w.tenants name).length := by
  have hmem : ∀ n, n ∈ w.tenants name ↔
      (w.serving.fleet.engine name).signals.Serves (.stream n) := by
    intro n
    rw [tenants, List.mem_filter, KeyMap.mem_values_iff, Option.any_eq_true]
    constructor
    · rintro ⟨⟨id, hid⟩, s, hs, hname⟩
      have hname' := of_decide_eq_true hname
      exact h.serves n s hs hname' (h.isOpen id n s hid hs hname')
    · intro hserved
      obtain ⟨_, hguest, heq⟩ := h.own _ hserved
      cases heq
      obtain ⟨s, hs, hname, hopen⟩ := htidy.serves name n hguest hserved
      refine ⟨?_, s, hs, decide_eq_true hname⟩
      by_contra hindex
      have hclosed := (isInOrder htidy).closed n s hs hguest (mt KeyMap.mem_values_iff.1 hindex)
      rw [hopen] at hclosed
      cases hclosed
  have hnodup : ((w.tenants name).map Subscriber.stream).Nodup :=
    ((nodup_values htidy.housed).filter _).map fun _ _ heq => Subscriber.stream.inj heq
  have hperm : (w.serving.fleet.engine name).signals.subscribers.Perm
      ((w.tenants name).map .stream) := by
    refine (List.perm_ext_iff_of_nodup h.nodup hnodup).2 fun who => ?_
    rw [Signals.mem_subscribers_iff, List.mem_map]
    constructor
    · intro hserved
      obtain ⟨n, -, rfl⟩ := h.own who hserved
      exact ⟨n, (hmem n).2 hserved, rfl⟩
    · rintro ⟨n, hn, rfl⟩
      exact (hmem n).1 hn
  rw [← Signals.length_subscribers, hperm.length_eq, List.length_map]

/-- **A server keeps its streams in order**, whatever its registry lists and whatever events reach
it: every stream is that of its own project, one that the server does not have any more is closed,
and a cached key leads to a project that has a stream. An engine that others leave alone has exactly
as many subscribers as the server has streams on it. -/
theorem in_order {projects : List Project} {config : StreamConfig} {receiver : Option Nat}
    {fleet : Fleet} (hfleet : fleet.IsSound) {acts : List Act}
    (hacts : acts.foldlM act? (start projects config receiver fleet) = some w) :
    w.IsInOrder ∧ ∀ name, fleet.IsVacant name → (∀ a ∈ acts, a.spares name = true) →
      (w.serving.fleet.engine name).signals.subscriberCount = (w.tenants name).length := by
  have hstart := isTidy_start hfleet projects config receiver
  have htidy : w.serving.IsTidy w.guests [] :=
    foldlM_induct (P := fun w => w.serving.IsTidy w.guests []) (fun h hact => isTidy_act h hact)
      hstart hacts
  refine ⟨isInOrder htidy, fun name hvacant hspares => subscriberCount_eq htidy ?_⟩
  exact isBooked_acts hstart (isBooked_start hfleet projects config receiver hvacant) hspares hacts

/-- A registry that lists one project twice and shares an engine between two; after a replacement
and a reconciliation seven streams were started, one of them by somebody else, and one is left on
the engine. -/
theorem in_order_after_reconciliation :
    ∃ w : Hosting, w.IsInOrder ∧ w.serving.fleet.nextSerial = 7 ∧ w.guests = [4] ∧
      w.serving.server.projectIds = ["b", "c"] ∧ w.serving.server.byKey.get? "k" = some "b" ∧
        w.tenants "e" = [6] ∧ (w.serving.fleet.engine "e").signals.subscriberCount = 1 := by
  let projects : List Project := [⟨"a", ["k"], "e"⟩, ⟨"a", [], "e"⟩, ⟨"b", ["k"], "e"⟩]
  let config : StreamConfig := ⟨1, 4, .block, "s"⟩
  let fleet : Fleet := ⟨.empty, [], fun _ => 0⟩
  let acts : List Act :=
    [.lookup projects "k", .apply projects (.replaced "b"), .other (.spawn "x" "f" config),
      .other (.engine "e" .publish), .other (.work 3),
      .reconcile [⟨"b", ["k"], "f"⟩, ⟨"c", [], "e"⟩], .apply [] (.removed "a")]
  let w := (acts.foldlM act? (start projects config none fleet)).get (by decide +kernel)
  have hacts : acts.foldlM act? (start projects config none fleet) = some w :=
    (Option.some_get _).symm
  obtain ⟨horder, hcount⟩ := in_order (Fleet.isSound_empty _) hacts
  have htenants : w.tenants "e" = [6] := by decide +kernel
  refine ⟨w, horder, by decide +kernel, by decide +kernel, by decide +kernel, by decide +kernel,
    htenants, ?_⟩
  rw [hcount "e" (Fleet.isVacant_empty _ "e") (by decide), htenants]
  rfl

end Hosting

end FlagFanout
