import FlagFanout.Proofs.Deployment.Lifetime

/-!
# The end of a server

While a server closes it stays tidy, with the streams that left its index as those that are still to
be closed (`Lifetime.IsSound`), and whatever a lookup found is one of its own streams
(`Lifetime.HasInquiries`). `Lifetime.Reached.stays_closed` says that the end is final: once it has
come, nothing that happens later brings back a stream, a project, a key or a subscription, and a
lookup that begins then finds nothing and writes nothing.

Lookups that are under way when the server gives up its index are settled too. One that the cache
had nothing for finds nothing. One that goes by a stream which the cache had may still return it,
closed or about to be closed; and if it learns that its key was revoked, it writes what the registry
has for the project into the cache, where nobody finds anything by it (`Lifetime.known_after_end`).
Only such a lookup can leave a key behind.
-/

namespace FlagFanout

namespace Serving

variable {guests leaving : List Nat} {v v' : Serving} {s s' : Serving × List Nat}

/-! ## Chores whatever is cached -/

/-- The serving with an empty cache of access keys. -/
def uncached (v : Serving) : Serving := { v with server := v.server.withCache .empty }

theorem Chore.uncached (h : Chore s s') :
    Chores (s.1.uncached, s.2) (s'.1.uncached, s'.2) := by
  cases h with
  | spawn v leaving p => exact .chore (.spawn v.uncached leaving p)
  | index | evict => exact .refl _
  | forget v leaving id => exact .chore (.forget v.uncached leaving id)
  | close v n leaving => exact .chore (.close v.uncached n leaving)

theorem Chores.uncached (h : Chores s s') : Chores (s.1.uncached, s.2) (s'.1.uncached, s'.2) :=
  h.induct (P := fun t => Chores (s.1.uncached, s.2) (t.1.uncached, t.2))
    (fun hchore ht => ht.trans hchore.uncached) (.refl _)

/-- No chore opens or closes a server. -/
theorem Chore.closed_eq (h : Chore s s') : s'.1.server.closed = s.1.server.closed := by
  cases h with
  | spawn | index | evict | forget | close => rfl

theorem Chores.closed_eq (h : Chores s s') : s'.1.server.closed = s.1.server.closed :=
  h.induct (P := fun t => t.1.server.closed = s.1.server.closed)
    (fun hchore ht => hchore.closed_eq.trans ht) rfl

theorem Chore.nextSerial_le (h : Chore s s') :
    s.1.fleet.nextSerial ≤ s'.1.fleet.nextSerial := by
  cases h with
  | spawn v leaving p =>
    have hnext : (v.spawn p).2.fleet.nextSerial = v.fleet.nextSerial + 1 :=
      v.fleet.nextSerial_spawn ..
    exact hnext ▸ Nat.le_succ _
  | index | evict | forget => exact Nat.le_refl _
  | close v n leaving => exact Nat.le_of_eq (v.fleet.nextSerial_close n).symm

theorem Chores.nextSerial_le (h : Chores s s') :
    s.1.fleet.nextSerial ≤ s'.1.fleet.nextSerial :=
  h.induct (P := fun t => s.1.fleet.nextSerial ≤ t.1.fleet.nextSerial)
    (fun hchore ht => Nat.le_trans ht hchore.nextSerial_le) (Nat.le_refl _)

/-- The streams in the index are the server's own. -/
def HasOwn (guests : List Nat) (v : Serving) : Prop :=
  ∀ id n, v.server.byId.get? id = some n → n ∉ guests

theorem HasOwn.chore (hchore : Chore s s') (htidy : IsTidy guests s.1 s.2)
    (h : HasOwn guests s.1) : HasOwn guests s'.1 := by
  cases hchore with
  | spawn v leaving p =>
    intro id n hn
    rw [byId_spawn] at hn
    split at hn
    · cases hn
      exact fun hguest => Nat.lt_irrefl _ (htidy.guests_lt _ hguest)
    · exact h id n hn
  | forget v leaving id' =>
    intro id n hn
    rw [byId_forget] at hn
    split at hn
    · cases hn
    · exact h id n hn
  | index | evict | close => exact h

/-- A server that is tidy but for its cache, and has streams of its own only, stays so. -/
theorem Chores.isTidy_and_hasOwn (h : Chores s s') (htidy : s.1.uncached.IsTidy guests s.2)
    (hown : s.1.HasOwn guests) : s'.1.uncached.IsTidy guests s'.2 ∧ s'.1.HasOwn guests :=
  h.uncached.induct (P := fun t => t.1.IsTidy guests t.2 ∧ t.1.HasOwn guests)
    (fun hchore ht => ⟨ht.1.chore hchore, ht.2.chore hchore ht.1⟩) ⟨htidy, hown⟩

/-- Whether a server is closed or listens does not matter to its being tidy, nor does its cache. -/
theorem IsTidy.withServer (h : v.uncached.IsTidy guests leaving) {server : Server}
    (hbyId : server.byId = v.server.byId) :
    (uncached { v with server }).IsTidy guests leaving where
  housed := ⟨h.housed.numbered, fun id n hn => h.housed.housed id n (hbyId ▸ hn)⟩
  guests_lt := h.guests_lt
  known _ _ hkey := nomatch hkey
  left n hn := ⟨(h.left n hn).1, fun id => hbyId ▸ (h.left n hn).2 id⟩
  closed n s hs hguest hindex := h.closed n s hs hguest fun id => hbyId ▸ hindex id
  serves := h.serves

/-- A server gives up its index, and all streams in it are to be closed. -/
theorem IsTidy.clear (h : v.uncached.IsTidy guests []) :
    (uncached { v with server := { v.server with byId := .empty, byKey := .empty } }).IsTidy guests
      v.server.byId.values where
  housed := ⟨h.housed.numbered, fun _ _ hn => nomatch hn⟩
  guests_lt := h.guests_lt
  known _ _ hkey := nomatch hkey
  left n hn := by
    obtain ⟨id, hid⟩ := KeyMap.mem_values_iff.1 hn
    exact ⟨h.housed.lt_nextSerial hid, fun _ hid' => nomatch hid'⟩
  closed n s hs hguest _ hleaving := by
    refine h.closed n s hs hguest (fun id hid => ?_) List.not_mem_nil
    exact hleaving (KeyMap.mem_values_iff.2 ⟨id, hid⟩)
  serves := h.serves

end Serving

theorem Duty.chores (v : Serving) (projects : List Project) (duty : Duty) :
    Serving.Chores (v, []) (duty.index v projects) := by
  cases duty with
  | reconcile => exact .realign v projects
  | apply e =>
    cases e with
    | added id =>
      simp only [index]
      cases Project.withId? projects id with
      | none => exact .refl _
      | some p => exact .add v p
    | removed id => exact .release v id
    | replaced id =>
      simp only [index]
      cases Project.withId? projects id with
      | none => exact .release v id
      | some p => exact .renew v p

namespace Lifetime

variable {w w' : Lifetime}

/-! ## What every act keeps -/

/-- The serial numbers of all streams that the server ever started. -/
def own (w : Lifetime) : List Nat :=
  (List.range w.fleet.nextSerial).filter fun n => n ∉ w.hosting.guests

theorem mem_own_iff {n : Nat} : n ∈ w.own ↔ n < w.fleet.nextSerial ∧ n ∉ w.hosting.guests := by
  rw [own, List.mem_filter, List.mem_range, decide_eq_true_iff]

/-- A server in its lifetime is tidy but for its cache, it is marked as closed before anything else
of its closing is done, and once it gave up its index it has nothing to do but to close streams. -/
structure IsSound (w : Lifetime) : Prop where
  tidy : w.hosting.serving.uncached.IsTidy w.hosting.guests w.leaving
  hasOwn : w.hosting.serving.HasOwn w.hosting.guests
  marked : w.stage = .running ∨ w.server.closed = true
  busy : w.duty ≠ none → w.leaving = []
  idle : w.stage.isOver = true →
    w.duty = none ∧ w.server.receiver = none ∧ w.server.byId = .empty
  done : w.stage = .done → w.leaving = []

theorem isSound_start (registry : Registry) (config : StreamConfig) {fleet : Fleet}
    (hfleet : fleet.IsSound) : (start registry config fleet).IsSound := by
  have hchores : Serving.Chores _ _ :=
    .foldl_replace registry.listen.2.projects ⟨.ofConfig config registry.listen.1, fleet⟩
  obtain ⟨htidy, hown⟩ := hchores.isTidy_and_hasOwn (hfleet.isTidy config registry.listen.1)
    (fun _ _ hn => nomatch hn)
  exact ⟨htidy, hown, .inl rfl, fun _ => rfl, nofun, nofun⟩

namespace IsSound

/-- A server that has still to look into something has its index. -/
theorem isOver_of_duty (h : w.IsSound) {duty : Duty} (hduty : w.duty = some duty) :
    w.stage.isOver = false := by
  cases hover : w.stage.isOver with
  | false => rfl
  | true =>
    rw [(h.idle hover).1] at hduty
    cases hduty

theorem isOver_of_receiver (h : w.IsSound) (hreceiver : w.server.receiver ≠ none) :
    w.stage.isOver = false := by
  cases hover : w.stage.isOver with
  | false => rfl
  | true => exact absurd (h.idle hover).2.1 hreceiver

/-- What the index holds is the server's own. -/
theorem mem_own (h : w.IsSound) {id : String} {n : Nat} (hn : w.server.byId.get? id = some n) :
    n ∈ w.own := mem_own_iff.2 ⟨h.tidy.housed.lt_nextSerial hn, h.hasOwn id n hn⟩

/-- The server stops listening. -/
theorem unfollow (h : w.IsSound) (registry : Registry) :
    IsSound { w.serve { w.hosting.serving with server := { w.server with receiver := none } } with
      registry } := by
  refine ⟨h.tidy.withServer rfl, h.hasOwn, h.marked, h.busy, fun hover => ?_, h.done⟩
  obtain ⟨hduty, -, hbyId⟩ := h.idle hover
  exact ⟨hduty, rfl, hbyId⟩

/-- The server hears something. -/
theorem hear (h : w.IsSound) (registry : Registry) (duty : Option Duty)
    (hleaving : w.leaving = []) (hreceiver : w.server.receiver ≠ none) :
    IsSound { w with registry, duty } := by
  have hover := h.isOver_of_receiver hreceiver
  exact ⟨h.tidy, h.hasOwn, h.marked, fun _ => hleaving,
    fun hover' => absurd (hover.symm.trans hover') Bool.false_ne_true, h.done⟩

/-- The server does its duty by its index. -/
theorem finish (h : w.IsSound) {duty : Duty} (hduty : w.duty = some duty)
    (projects : List Project) :
    IsSound { w.serve (duty.index w.hosting.serving projects).1 with
      duty := none
      leaving := (duty.index w.hosting.serving projects).2 } := by
  have hover := h.isOver_of_duty hduty
  have hchores := duty.chores w.hosting.serving projects
  have htidy := h.tidy
  rw [h.busy (hduty ▸ Option.some_ne_none duty)] at htidy
  obtain ⟨htidy', hown⟩ := hchores.isTidy_and_hasOwn htidy h.hasOwn
  exact ⟨htidy', hown, h.marked.imp id hchores.closed_eq.trans, absurd rfl,
    fun hover' => absurd (hover.symm.trans hover') Bool.false_ne_true,
    fun hdone => nomatch (congrArg Stage.isOver hdone).symm.trans hover⟩

/-- A lookup goes on. -/
theorem advance (h : w.IsSound) (i : Nat) {l l' : Inquiry} {s' : Server}
    (hpart : l.Part w.server l' s') : (w.advance i (l', s')).IsSound := by
  obtain ⟨byKey, rfl⟩ := hpart.exists_withCache
  exact ⟨h.tidy.withServer rfl, h.hasOwn, h.marked, h.busy, h.idle, h.done⟩

/-- The server is marked as closed. -/
theorem mark (h : w.IsSound) :
    IsSound { w.serve { w.hosting.serving with server := { w.server with closed := true } } with
      stage := .marked } where
  tidy := h.tidy.withServer rfl
  hasOwn := h.hasOwn
  marked := .inr rfl
  busy := h.busy
  idle := nofun
  done := nofun

theorem cancel (h : w.IsSound) (hstage : w.stage = .marked) :
    IsSound { w with stage := .cancelled } where
  tidy := h.tidy
  hasOwn := h.hasOwn
  marked := .inr (h.marked.resolve_left (hstage ▸ nofun))
  busy := h.busy
  idle := nofun
  done := nofun

theorem clear (h : w.IsSound) (hstage : w.stage = .cancelled) (hduty : w.duty = none)
    (hleaving : w.leaving = []) (hreceiver : w.server.receiver = none) : w.clear.IsSound where
  tidy := by
    have htidy := h.tidy
    rw [hleaving] at htidy
    exact htidy.clear
  hasOwn _ _ hn := nomatch hn
  marked := .inr (h.marked.resolve_left (hstage ▸ nofun))
  busy hbusy := absurd hduty hbusy
  idle _ := ⟨hduty, hreceiver, rfl⟩
  done := nofun

/-- The next stream is closed. -/
theorem retire (h : w.IsSound) {n : Nat} {rest : List Nat} (hleaving : w.leaving = n :: rest) :
    IsSound { w.serve { w.hosting.serving with fleet := w.fleet.close n } with
      leaving := rest } := by
  have htidy := h.tidy
  rw [hleaving] at htidy
  refine ⟨htidy.close, h.hasOwn, h.marked, fun hbusy => ?_, h.idle, fun hdone => ?_⟩
  · exact nomatch hleaving.symm.trans (h.busy hbusy)
  · exact nomatch hleaving.symm.trans (h.done hdone)

/-- No stream is left to be closed. -/
theorem complete (h : w.IsSound) (hstage : w.stage = .left) (hleaving : w.leaving = []) :
    IsSound { w with stage := .done } where
  tidy := h.tidy
  hasOwn := h.hasOwn
  marked := .inr (h.marked.resolve_left (hstage ▸ nofun))
  busy := h.busy
  idle _ := h.idle (hstage ▸ rfl)
  done _ := hleaving

theorem other (h : w.IsSound) {a : Fleet.Act} {hosting : Hosting}
    (hother : w.hosting.other? a = some hosting) : IsSound { w with hosting } := by
  obtain ⟨f, hf, rfl⟩ := Option.map_eq_some_iff.1 hother
  have huncached : (⟨w.hosting.serving.uncached, w.hosting.guests⟩ : Hosting).other? a =
      some ⟨Serving.uncached { w.hosting.serving with fleet := f },
        w.hosting.guests ++ a.started w.hosting.serving.fleet⟩ :=
    Option.map_eq_some_iff.2 ⟨f, hf, rfl⟩
  refine ⟨Hosting.isTidy_other h.tidy huncached, fun id n hn hmem => ?_, h.marked, h.busy, h.idle,
    h.done⟩
  rcases List.mem_append.1 hmem with hguest | hstarted
  · exact h.hasOwn id n hn hguest
  · exact Nat.ne_of_lt (h.tidy.housed.lt_nextSerial hn) (Fleet.Act.eq_of_mem_started hstarted)

/-- **Every act leaves a lifetime sound.** -/
theorem move (h : w.IsSound) (hmove : w.Move w') : w'.IsSound := by
  cases hmove with
  | change registry | ask key => exact ⟨h.tidy, h.hasOwn, h.marked, h.busy, h.idle, h.done⟩
  | hear registry duty hleaving hreceiver => exact h.hear registry duty hleaving hreceiver
  | unfollow registry => exact h.unfollow registry
  | finish hduty projects => exact h.finish hduty projects
  | proceed i hl hpart => exact h.advance i hpart
  | mark hopen => exact h.mark
  | cancel hstage => exact h.cancel hstage
  | clear hstage hduty hleaving hreceiver => exact h.clear hstage hduty hleaving hreceiver
  | retire hleaving => exact h.retire hleaving
  | complete hstage hleaving => exact h.complete hstage hleaving
  | other hother => exact h.other hother

end IsSound

theorem Reached.isSound (h : Reached w) : w.IsSound := by
  induction h with
  | start registry config hfleet => exact isSound_start registry config hfleet
  | act _ hact ih => exact ih.move (move_of_act? hact)

/-! ## What lookups hold -/

/-- What others do leaves the server alone. -/
theorem server_other {a : Fleet.Act} {hosting : Hosting}
    (hother : w.hosting.other? a = some hosting) : hosting.serving.server = w.server := by
  obtain ⟨f, -, rfl⟩ := Option.map_eq_some_iff.1 hother
  rfl

/-- Nor does it start a stream of the server. -/
theorem own_other (h : w.IsSound) {a : Fleet.Act} {hosting : Hosting}
    (hother : w.hosting.other? a = some hosting) : own { w with hosting } = w.own := by
  have hnumbered : w.hosting.serving.fleet.Numbered := h.tidy.housed.numbered
  obtain ⟨f, hf, rfl⟩ := Option.map_eq_some_iff.1 hother
  rcases (Fleet.stir_of_act? hf).ages hnumbered with
    ⟨hstarted, hages⟩ | ⟨project, engineName, config, hstarted, rfl⟩
  · simp only [own, fleet, hstarted, List.append_nil, hages.next_eq]
  · have hnew : ([w.hosting.serving.fleet.nextSerial].filter fun n =>
        n ∉ w.hosting.guests ++ [w.hosting.serving.fleet.nextSerial]) = [] := by simp
    simp only [own, fleet, hstarted, Fleet.nextSerial_spawn, List.range_succ, List.filter_append]
    rw [hnew, List.append_nil]
    refine List.filter_congr fun n hn => ?_
    have hne : n ≠ w.hosting.serving.fleet.nextSerial := Nat.ne_of_lt (List.mem_range.1 hn)
    simp [hne]

/-- What the lookups that the end of the server overtook had found in its index. -/
def overtakenHits (w : Lifetime) : List (String × Nat) :=
  w.inquiries.filterMap fun l => if l.overtaken then l.cached else none

theorem mem_overtakenHits {l : Inquiry} (hl : l ∈ w.inquiries) (hovertaken : l.overtaken = true)
    {hit : String × Nat} (hcached : l.cached = some hit) : hit ∈ w.overtakenHits :=
  List.mem_filterMap.2 ⟨l, hl, by rw [hovertaken, if_pos rfl, hcached]⟩

/-- A lookup that begins is not overtaken. -/
theorem overtakenHits_ask (w : Lifetime) (key : String) :
    overtakenHits { w with inquiries := w.inquiries ++ [w.server.inquire key] } =
      w.overtakenHits := by
  have hnew : [w.server.inquire key].filterMap (fun l => if l.overtaken then l.cached else none) =
      [] := rfl
  rw [overtakenHits, List.filterMap_append, hnew, List.append_nil]
  rfl

theorem overtakenHits_advance {i : Nat} {l l' : Inquiry} {s' : Server}
    (hl : w.inquiries[i]? = some l) (hpart : l.Part w.server l' s') :
    (w.advance i (l', s')).overtakenHits = w.overtakenHits := by
  let hit : Inquiry → Option (String × Nat) := fun l => if l.overtaken then l.cached else none
  have hsame : hit l' = hit l := by
    obtain ⟨-, hcached, hovertaken⟩ := hpart.frame
    simp only [hit, hcached, hovertaken]
  have hmap : (w.inquiries.set i l').map hit = w.inquiries.map hit := by
    obtain ⟨hi, rfl⟩ := List.getElem?_eq_some_iff.1 hl
    rw [List.map_set, hsame, ← List.map_set, List.set_getElem_self]
  have hhits (ls : List Inquiry) : ls.filterMap hit = (ls.map hit).filterMap id := by
    rw [List.filterMap_map, Function.id_comp]
  exact (hhits _).trans ((congrArg (List.filterMap id) hmap).trans (hhits _).symm)

/-- Every stream that a lookup holds is one of the server's own. Once the server gave up its index,
only lookups that this overtook go by what they found before, and only they write into the cache. -/
structure HasInquiries (w : Lifetime) : Prop where
  sound : ∀ l ∈ w.inquiries, l.IsSound
  holds : ∀ l ∈ w.inquiries, ∀ n, l.Holds n → n ∈ w.own
  overtaken : w.stage.isOver = true → ∀ l ∈ w.inquiries, l.progress.goesByHit = true →
    l.overtaken = true
  known : w.stage.isOver = true → ∀ key id, w.server.byKey.get? key = some id →
    ∃ n, (id, n) ∈ w.overtakenHits

namespace HasInquiries

/-- No lookup goes on, and the server does not give up its index. -/
theorem frame (h : w.HasInquiries) (hinquiries : w'.inquiries = w.inquiries)
    (hown : ∀ n ∈ w.own, n ∈ w'.own)
    (hover : w'.stage.isOver = true →
      w.stage.isOver = true ∧ w'.server.byKey = w.server.byKey) : w'.HasInquiries where
  sound := hinquiries ▸ h.sound
  holds l hl n hn := hown n (h.holds l (hinquiries ▸ hl) n hn)
  overtaken hover' l hl := h.overtaken (hover hover').1 l (hinquiries ▸ hl)
  known hover' key id hkey := by
    obtain ⟨hover, hbyKey⟩ := hover hover'
    rw [hbyKey] at hkey
    rw [overtakenHits, hinquiries]
    exact h.known hover key id hkey

theorem finish (h : w.HasInquiries) (hsound : w.IsSound) {duty : Duty} (hduty : w.duty = some duty)
    (projects : List Project) :
    HasInquiries { w.serve (duty.index w.hosting.serving projects).1 with
      duty := none
      leaving := (duty.index w.hosting.serving projects).2 } := by
  have hnext := (duty.chores w.hosting.serving projects).nextSerial_le
  refine h.frame rfl (fun n hn => ?_) fun hover => ?_
  · obtain ⟨hlt, hguest⟩ := mem_own_iff.1 hn
    exact mem_own_iff.2 ⟨Nat.lt_of_lt_of_le hlt hnext, hguest⟩
  · exact absurd ((hsound.isOver_of_duty hduty).symm.trans hover) Bool.false_ne_true

/-- A lookup begins. -/
theorem ask (h : w.HasInquiries) (hsound : w.IsSound) (key : String) :
    HasInquiries { w with inquiries := w.inquiries ++ [w.server.inquire key] } := by
  have hmem : ∀ l ∈ w.inquiries ++ [w.server.inquire key],
      l ∈ w.inquiries ∨ l = w.server.inquire key := fun l hl =>
    (List.mem_append.1 hl).imp_right List.mem_singleton.1
  refine ⟨fun l hl => ?_, fun l hl n hn => ?_, fun hover l hl hhit => ?_,
    fun hover key' id hkey => ?_⟩
  · rcases hmem l hl with hold | rfl
    · exact h.sound l hold
    · exact Inquiry.isSound_inquire w.server key
  · rcases hmem l hl with hold | rfl
    · exact h.holds l hold n hn
    · obtain ⟨id, hid⟩ := Inquiry.exists_byId_of_holds_inquire hn
      exact hsound.mem_own hid
  · rcases hmem l hl with hold | rfl
    · exact h.overtaken hover l hold hhit
    · have hvain := Inquiry.isVain_inquire (hsound.idle hover).2.2 key
      exact absurd (hvain.goesByHit_eq.symm.trans hhit) Bool.false_ne_true
  · rw [overtakenHits_ask]
    exact h.known hover key' id hkey

/-- A lookup goes on. -/
theorem advance (h : w.HasInquiries) (hsound : w.IsSound) {i : Nat} {l l' : Inquiry} {s' : Server}
    (hl : w.inquiries[i]? = some l) (hpart : l.Part w.server l' s') :
    (w.advance i (l', s')).HasInquiries := by
  have hmem : l ∈ w.inquiries := List.mem_of_getElem? hl
  refine ⟨fun m hm => ?_, fun m hm n hn => ?_, fun hover m hm hhit => ?_,
    fun hover key id hkey => ?_⟩
  · rcases List.mem_or_eq_of_mem_set hm with hold | rfl
    · exact h.sound m hold
    · exact (h.sound l hmem).part hpart
  · rcases List.mem_or_eq_of_mem_set hm with hold | rfl
    · exact h.holds m hold n hn
    · rcases hpart.holds (h.sound l hmem) hn with hheld | ⟨id, hid⟩
      · exact h.holds l hmem n hheld
      · exact hsound.mem_own hid
  · rcases List.mem_or_eq_of_mem_set hm with hold | rfl
    · exact h.overtaken hover m hold hhit
    · rw [hpart.frame.2.2]
      exact h.overtaken hover l hmem (hpart.goesByHit hhit)
  · rw [overtakenHits_advance hl hpart]
    rcases hpart.known (hsound.idle hover).2.2 (h.sound l hmem) hkey with hold | ⟨hhit, n, hn⟩
    · exact h.known hover key id hold
    · exact ⟨n, mem_overtakenHits hmem (h.overtaken hover l hmem hhit) hn⟩

theorem clear (h : w.HasInquiries) : w.clear.HasInquiries := by
  refine ⟨fun l hl => ?_, fun l hl n hn => ?_, fun _ l hl hhit => ?_,
    fun _ _ _ hkey => nomatch hkey⟩
  all_goals obtain ⟨m, hm, rfl⟩ := List.mem_map.1 hl
  · exact ⟨(h.sound m hm).hit, (h.sound m hm).stale⟩
  · exact h.holds m hm n hn
  · exact hhit

/-- **Every act of a sound lifetime** leaves lookups in order. -/
theorem move (h : w.HasInquiries) (hsound : w.IsSound) (hmove : w.Move w') :
    w'.HasInquiries := by
  cases hmove with
  | change | hear | unfollow => exact h.frame rfl (fun _ hn => hn) fun hover => ⟨hover, rfl⟩
  | finish hduty projects => exact h.finish hsound hduty projects
  | ask key => exact h.ask hsound key
  | proceed i hl hpart => exact h.advance hsound hl hpart
  | mark | cancel =>
    exact h.frame rfl (fun _ hn => hn) fun hover => absurd hover Bool.false_ne_true
  | clear => exact h.clear
  | retire hleaving =>
    refine h.frame rfl (fun k hk => ?_) fun hover => ⟨hover, rfl⟩
    obtain ⟨hlt, hguest⟩ := mem_own_iff.1 hk
    exact mem_own_iff.2 ⟨(w.fleet.nextSerial_close _).symm ▸ hlt, hguest⟩
  | complete hstage hleaving =>
    exact h.frame rfl (fun _ hn => hn) fun _ => ⟨hstage ▸ rfl, rfl⟩
  | other hother =>
    have hserver := server_other hother
    refine h.frame rfl (fun n hn => ?_) fun hover => ⟨hover, congrArg Server.byKey hserver⟩
    rw [own_other hsound hother]
    exact hn

end HasInquiries

theorem Reached.hasInquiries (h : Reached w) : w.HasInquiries := by
  induction h with
  | start registry config hfleet => exact ⟨nofun, nofun, nofun, nofun⟩
  | act hreached hact ih => exact ih.move hreached.isSound (move_of_act? hact)

/-! ## The end -/

/-- Nothing of a server is left. -/
structure IsGone (w : Lifetime) : Prop where
  closed : w.server.closed = true
  byId_eq : w.server.byId = .empty
  projectIds_eq : w.server.projectIds = []
  stats_eq : w.hosting.serving.stats = ⟨0, 0, 0, 0, 0⟩
  get?_eq : ∀ id, w.server.byId.get? id = none
  /-- Nor is anything found, or learnt, by a key, whatever is cached and the registry answers. -/
  lookupKey_eq : ∀ projects key, w.server.lookupKey projects key = (none, w.server)
  /-- A key that is known leads to the project of a stream that a lookup had found which the end
  overtook. -/
  known : ∀ key id, w.server.byKey.get? key = some id → ∃ n, (id, n) ∈ w.overtakenHits
  /-- No key is known, unless there was such a lookup. -/
  byKey_eq : w.overtakenHits = [] → w.server.byKey = .empty
  /-- All streams that the server ever started are closed. -/
  stream_closed : ∀ n ∈ w.own, ∃ s, w.fleet.stream? n = some s ∧ s.closed = true
  /-- So are all that a lookup ever found. -/
  holds_closed : ∀ l ∈ w.inquiries, ∀ n, l.Holds n →
    ∃ s, w.fleet.stream? n = some s ∧ s.closed = true
  unsubscribed : ∀ name, ∀ n ∈ w.own, ¬ (w.fleet.engine name).signals.Serves (.stream n)

theorem HasInquiries.isGone (h : w.HasInquiries) (hsound : w.IsSound) (hdone : w.stage = .done) :
    w.IsGone := by
  obtain ⟨-, -, hbyId⟩ := hsound.idle (hdone ▸ rfl)
  have hget : ∀ id, w.server.byId.get? id = none := fun id => hbyId ▸ KeyMap.get?_empty id
  have hknown := h.known (hdone ▸ rfl)
  have hclosed : ∀ n s, w.fleet.stream? n = some s → n ∉ w.hosting.guests → s.closed = true := by
    intro n s hs hguest
    refine hsound.tidy.closed n s hs hguest (fun id hid => ?_)
      (hsound.done hdone ▸ List.not_mem_nil)
    exact Option.some_ne_none n (hid.symm.trans (hget id))
  have hown : ∀ n ∈ w.own, ∃ s, w.fleet.stream? n = some s ∧ s.closed = true := by
    intro n hn
    obtain ⟨hlt, hguest⟩ := mem_own_iff.1 hn
    have hs : w.fleet.stream? n = some w.fleet.streams[n] := List.getElem?_eq_getElem hlt
    exact ⟨_, hs, hclosed n _ hs hguest⟩
  refine
    { closed := hsound.marked.resolve_left (hdone ▸ nofun)
      byId_eq := hbyId
      projectIds_eq := by rw [Server.projectIds, hbyId]; rfl
      stats_eq := ?_
      get?_eq := hget
      lookupKey_eq := Server.lookupKey_of_byId_eq_empty hbyId
      known := hknown
      byKey_eq := fun hhits => ?_
      stream_closed := hown
      holds_closed := fun l hl n hn => hown n (h.holds l hl n hn)
      unsubscribed := fun name n hn hserved => ?_ }
  · have hvalues : w.hosting.serving.server.byId.values = [] := congrArg KeyMap.values hbyId
    rw [Serving.stats, hvalues]
    rfl
  · refine KeyMap.ext_get? fun key => ?_
    rw [KeyMap.get?_empty, Option.eq_none_iff_forall_ne_some]
    intro id hkey
    obtain ⟨n, hn⟩ := hknown key id hkey
    rw [hhits] at hn
    cases hn
  · obtain ⟨-, hguest⟩ := mem_own_iff.1 hn
    obtain ⟨s, hs, -, hopen⟩ := hsound.tidy.serves name n hguest hserved
    rw [hclosed n s hs hguest] at hopen
    cases hopen

/-- The lookup with number `i` is vain, or still to begin. -/
def IsVain (w : Lifetime) (i : Nat) : Prop := ∀ l, w.inquiries[i]? = some l → l.IsVain

/-- What a server that was done keeps, however long ago that was. -/
structure Keeps (w w' : Lifetime) : Prop where
  stage_eq : w'.stage = .done
  own_eq : w'.own = w.own
  overtakenHits_eq : w'.overtakenHits = w.overtakenHits
  /-- A lookup that was vain stays so, and one that begins after the end is vain too. -/
  vain : ∀ i, w.IsVain i → w'.IsVain i
  /-- Where no lookup goes by what it found, none will, and nothing is written. -/
  server_eq : (∀ l ∈ w.inquiries, l.progress.goesByHit = false) →
    (∀ l ∈ w'.inquiries, l.progress.goesByHit = false) ∧ w'.server = w.server

namespace Keeps

theorem refl (hdone : w.stage = .done) : w.Keeps w :=
   ⟨hdone, rfl, rfl, fun _ hi => hi, fun h => ⟨h, rfl⟩⟩

variable {next : Lifetime}

/-- A lookup begins. -/
theorem ask (h : w.Keeps w') (hbyId : w'.server.byId = .empty) (key : String) :
    w.Keeps { w' with inquiries := w'.inquiries ++ [w'.server.inquire key] } := by
  have hvain : (w'.server.inquire key).IsVain := Inquiry.isVain_inquire hbyId key
  refine ⟨h.stage_eq, h.own_eq, (overtakenHits_ask w' key).trans h.overtakenHits_eq,
    fun j hj m hm => ?_, fun hhits => ⟨fun m hm => ?_, (h.server_eq hhits).2⟩⟩
  · rw [List.getElem?_append] at hm
    split at hm
    · exact h.vain j hj m hm
    · rw [List.mem_singleton.1 (List.mem_of_getElem? hm)]
      exact hvain
  · rcases List.mem_append.1 hm with hold | hnew
    · exact (h.server_eq hhits).1 m hold
    · rw [List.mem_singleton.1 hnew]
      exact hvain.goesByHit_eq

/-- A lookup goes on. -/
theorem advance (h : w.Keeps w') (hbyId : w'.server.byId = .empty) {i : Nat} {l l' : Inquiry}
    {s' : Server} (hl : w'.inquiries[i]? = some l) (hpart : l.Part w'.server l' s') :
    w.Keeps (w'.advance i (l', s')) := by
  refine ⟨h.stage_eq, h.own_eq, (overtakenHits_advance hl hpart).trans h.overtakenHits_eq,
    fun j hj m hm => ?_, fun hhits => ?_⟩
  · rw [Lifetime.advance, List.getElem?_set] at hm
    split at hm
    · next heq =>
      subst heq
      split at hm
      · cases hm
        exact ((h.vain i hj l hl).part hbyId hpart).1
      · cases hm
    · exact h.vain j hj m hm
  · obtain ⟨hnone, hserver⟩ := h.server_eq hhits
    have hhit := hnone l (List.mem_of_getElem? hl)
    refine ⟨fun m hm => ?_, (hpart.server_eq hbyId hhit).trans hserver⟩
    rcases List.mem_or_eq_of_mem_set hm with hold | rfl
    · exact hnone m hold
    · exact Bool.eq_false_iff.2 fun hhit' =>
        absurd (hhit.symm.trans (hpart.goesByHit hhit')) Bool.false_ne_true

/-- **A server that is done does nothing any more**: what still happens is a change of the registry,
an act of others, or a lookup. -/
theorem move (h : w.Keeps w') (hsound : w'.IsSound) (hmove : w'.Move next) : w.Keeps next := by
  obtain ⟨hduty, hreceiver, hbyId⟩ := hsound.idle (h.stage_eq ▸ rfl)
  cases hmove with
  | change registry =>
    exact ⟨h.stage_eq, h.own_eq, h.overtakenHits_eq, h.vain, h.server_eq⟩
  | ask key => exact h.ask hbyId key
  | proceed i hl hpart => exact h.advance hbyId hl hpart
  | other hother =>
    exact ⟨h.stage_eq, (own_other hsound hother).trans h.own_eq, h.overtakenHits_eq, h.vain,
      fun hhits => (h.server_eq hhits).imp_right (server_other hother).trans⟩
  | hear registry duty hleaving hlistens => exact absurd hreceiver hlistens
  | unfollow registry =>
    have hserver : { w'.server with receiver := none } = w'.server := by rw [← hreceiver]
    exact ⟨h.stage_eq, h.own_eq, h.overtakenHits_eq, h.vain,
      fun hhits => (h.server_eq hhits).imp_right hserver.trans⟩
  | finish hduty' => exact nomatch hduty.symm.trans hduty'
  | mark hopen =>
    have hclosed := hsound.marked.resolve_left (h.stage_eq ▸ nofun)
    exact absurd (hopen.symm.trans hclosed) Bool.false_ne_true
  | cancel hstage | clear hstage | complete hstage => exact nomatch h.stage_eq.symm.trans hstage
  | retire hleaving => exact nomatch (hsound.done h.stage_eq).symm.trans hleaving

end Keeps

theorem Reached.keeps (h : Reached w) (hdone : w.stage = .done) {acts : List Act}
    (hacts : acts.foldlM act? w = some w') : Reached w' ∧ w.Keeps w' :=
  foldlM_induct (P := fun w' => Reached w' ∧ w.Keeps w')
    (fun hnow hact => ⟨.act hnow.1 hact, hnow.2.move hnow.1.isSound (move_of_act? hact)⟩)
    ⟨h, .refl hdone⟩ hacts

/-- A lookup found the stream of `a` before the end and learns afterwards that its key was rotated.
The new key is known then, to a server of which nothing is left. -/
theorem known_after_end :
    ∃ w w' : Lifetime, Reached w ∧ w.stage = .done ∧ w.server.byKey.toList = [] ∧
      (∃ acts : List Act, acts.foldlM act? w = some w') ∧ w'.IsGone ∧
      w'.server.byKey.get? "n" = some "a" := by
  let rotated : Project := ⟨"a", ["n"], "e"⟩
  let first : Lifetime :=
    start (.list (.manual [⟨"a", ["k"], "e"⟩])) ⟨1, 4, .block, "s"⟩ ⟨.empty, [], fun _ => 0⟩
  let acts : List Act := [.ask "k", .close, .cancel, .unfollow, .clear, .retire, .retire]
  let later : List Act := [.proceed 0 [rotated], .proceed 0 [rotated]]
  let w := (acts.foldlM act? first).get (by decide +kernel)
  let w' := (later.foldlM act? w).get (by decide +kernel)
  have hlater : later.foldlM act? w = some w' := (Option.some_get _).symm
  have hreached : Reached w :=
    (Reached.start _ _ (Fleet.isSound_empty _)).acts (Option.some_get _).symm
  have hreached' : Reached w' := hreached.acts hlater
  have hdone' : w'.stage = .done := by decide +kernel
  exact ⟨w, w', hreached, by decide +kernel, by decide +kernel, ⟨later, hlater⟩,
    hreached'.hasInquiries.isGone hreached'.isSound hdone', by decide +kernel⟩

end Lifetime

end FlagFanout
