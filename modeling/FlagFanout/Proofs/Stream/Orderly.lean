import FlagFanout.Proofs.Stream.Accounting

/-!
# A worker between two jobs

Between two jobs nothing is left to account for, and what the worker keeps agrees with itself and
with the log: `Orderly` says how.

The main statement is `Run.orderly`: a stream is orderly whenever its worker is between two jobs,
and no step of the worker ever takes more connections off the gauge than the gauge shows.
-/

namespace FlagFanout

/-! ## Where connections were opened -/

theorem Ledger.place_of_see {id : ConnectionId} {l : Ledger} {ev : Event} {place : Place}
    (h : (l.see id ev).place = some place) :
    l.place = some place ∨ ∃ m, ev = .joined id place m := by
  cases ev with
  | joined id' place' m =>
    simp only [see] at h
    split at h
    · next heq =>
      cases h
      exact .inr ⟨m, heq ▸ rfl⟩
    · exact .inl h
  | closed id' place' =>
    simp only [see] at h
    split at h
    · cases h
    · exact .inl h
  | produced place' m =>
    simp only [see] at h
    split at h <;> exact .inl h
  | offered id' m box =>
    simp only [see] at h
    split at h
    · cases hbox : box.listening with
      | true => exact .inl (by simpa [hbox] using h)
      | false => simp [hbox] at h
    · exact .inl h
  | opened c context => exact .inl h
  | taken id' m => exact .inl h
  | effect f => exact .inl h

/-- A connection is where it was before, unless it joined. -/
theorem place_of_append {id : ConnectionId} {log events : List Event} {place : Place}
    (h : (ledger id (log ++ events)).place = some place) :
    (ledger id log).place = some place ∨ ∃ m, .joined id place m ∈ events := by
  rw [ledger_append] at h
  generalize ledger id log = l at h ⊢
  induction events generalizing l with
  | nil => exact .inl h
  | cons ev rest ih =>
    rcases ih (l.see id ev) h with hl | ⟨m, hm⟩
    · exact (Ledger.place_of_see hl).imp_right fun ⟨m, hm⟩ => ⟨m, hm ▸ List.mem_cons_self⟩
    · exact .inr ⟨m, List.mem_cons_of_mem _ hm⟩

/-- What the log tells about the opening of the connections that the stream knows. -/
structure Traced (s : Stream) (log : List Event) : Prop where
  known : ∀ c context, .opened c context ∈ log →
    c.id.stream = s.serial ∧ c.id.number < s.mailboxes.next
  /-- A connection is opened once. -/
  unique : ∀ c c' context context', .opened c context ∈ log → .opened c' context' ∈ log →
    c.id = c'.id → c = c'
  of_queue : ∀ id selector discriminator context,
    .established id selector discriminator context ∈ s.queue →
      .opened ⟨id, selector, discriminator⟩ context ∈ log
  /-- A connection joins where it was opened. -/
  of_place : ∀ id place, (ledger id log).place = some place →
    ∃ context, .opened ⟨id, place.1, place.2⟩ context ∈ log

namespace Traced

variable {s s' : Stream} {log events : List Event}

/-- Nothing is opened, nothing new waits in the queue, and only who waits there joins. -/
theorem of_quiet (h : Traced s log) (hserial : s'.serial = s.serial)
    (hnext : s.mailboxes.next ≤ s'.mailboxes.next)
    (hqueue : ∀ id selector discriminator context,
      .established id selector discriminator context ∈ s'.queue →
        .established id selector discriminator context ∈ s.queue)
    (hopened : ∀ c context, .opened c context ∉ events)
    (hjoined : ∀ id place m, .joined id place m ∈ events →
      ∃ context, .established id place.1 place.2 context ∈ s.queue) :
    Traced s' (log ++ events) := by
  have hold : ∀ {c context}, .opened c context ∈ log ++ events → .opened c context ∈ log :=
    fun hc => (List.mem_append.1 hc).resolve_right (hopened _ _)
  refine
    { known := fun c context hc => ?_
      unique := fun c c' context context' hc hc' => h.unique c c' _ _ (hold hc) (hold hc')
      of_queue := fun id selector discriminator context hid =>
        List.mem_append_left _ (h.of_queue id selector discriminator context
          (hqueue id selector discriminator context hid))
      of_place := fun id place hp => ?_ }
  · obtain ⟨hstream, hnumber⟩ := h.known c context (hold hc)
    exact ⟨hstream.trans hserial.symm, Nat.lt_of_lt_of_le hnumber hnext⟩
  · rcases place_of_append hp with hp | ⟨m, hm⟩
    · obtain ⟨context, hcontext⟩ := h.of_place id place hp
      exact ⟨context, List.mem_append_left _ hcontext⟩
    · obtain ⟨context, hcontext⟩ := hjoined id place m hm
      exact ⟨context, List.mem_append_left _ (h.of_queue id _ _ context hcontext)⟩

/-- A connection is opened, and a command to register it may be sent. -/
theorem connect (h : Traced s log) {c : Connection} {context : Option Context}
    (hid : c.id = ⟨s.serial, s.mailboxes.next⟩) (hserial : s'.serial = s.serial)
    (hnext : s'.mailboxes.next = s.mailboxes.next + 1)
    (hqueue : ∀ id selector discriminator context',
      .established id selector discriminator context' ∈ s'.queue →
        .established id selector discriminator context' ∈ s.queue ∨
          (⟨id, selector, discriminator⟩ : Connection) = c ∧ context' = context) :
    Traced s' (log ++ [.opened c context]) := by
  have hcases : ∀ {c' context'}, .opened c' context' ∈ log ++ [.opened c context] →
      .opened c' context' ∈ log ∨ c' = c ∧ context' = context := by
    intro c' context' hc'
    simpa using hc'
  have hfresh : ∀ {c' context'}, .opened c' context' ∈ log → c'.id ≠ c.id := by
    intro c' context' hc' heq
    have hnumber := (h.known _ _ hc').2
    rw [heq, hid] at hnumber
    exact Nat.lt_irrefl _ hnumber
  refine
    { known := fun c' context' hc' => ?_
      unique := fun c₁ c₂ context₁ context₂ hc₁ hc₂ heq => ?_
      of_queue := fun id selector discriminator context' hc' => ?_
      of_place := fun id place hp => ?_ }
  · rw [hserial, hnext]
    rcases hcases hc' with hc' | ⟨rfl, -⟩
    · exact (h.known c' context' hc').imp_right Nat.lt_succ_of_lt
    · exact hid ▸ ⟨rfl, Nat.lt_succ_self _⟩
  · rcases hcases hc₁ with hold₁ | ⟨rfl, -⟩ <;> rcases hcases hc₂ with hold₂ | ⟨rfl, -⟩
    · exact h.unique c₁ c₂ _ _ hold₁ hold₂ heq
    · exact absurd heq (hfresh hold₁)
    · exact absurd heq.symm (hfresh hold₂)
    · rfl
  · rcases hqueue _ _ _ _ hc' with hc' | ⟨rfl, rfl⟩
    · exact List.mem_append_left _ (h.of_queue _ _ _ _ hc')
    · simp
  · rw [ledger_opened] at hp
    obtain ⟨context', hcontext⟩ := h.of_place id place hp
    exact ⟨context', List.mem_append_left _ hcontext⟩

theorem not_opened_of_turn {e : Engine} {next : Stream.Step}
    (hturn : Stream.Turn e s next events) (c : Connection) (context : Option Context) :
    .opened c context ∉ events := by
  cases hturn <;> simp

theorem established_of_turn {e : Engine} {next : Stream.Step}
    (hturn : Stream.Turn e s next events) {id : ConnectionId} {place : Place} {m : Message}
    (h : .joined id place m ∈ events) :
    ∃ context, .established id place.1 place.2 context ∈ s.queue := by
  cases hturn with
  | @join id' selector discriminator context queue c out hphase hqueue hchannel hattempt hout =>
    have hevent : id = id' ∧ place = (selector, discriminator) ∧ m = c.last.message := by
      simpa using h
    obtain ⟨rfl, rfl, -⟩ := hevent
    exact ⟨context, hqueue ▸ List.mem_cons_self⟩
  | stop | refuse | ignore | depart | begin | pass | produce | endPass | serve | stall | resume
  | endPush => simp at h

theorem queue_of_turn {e : Engine} {next : Stream.Step} (hturn : Stream.Turn e s next events) :
    next.stream.queue.Sublist s.queue := by
  cases hturn with
  | stop => exact List.nil_sublist _
  | refuse hphase hqueue => rw [hqueue]; exact List.sublist_cons_self ..
  | join hphase hqueue => rw [hqueue]; exact List.sublist_cons_self ..
  | ignore hphase hqueue => rw [hqueue]; exact List.sublist_cons_self ..
  | depart hphase hqueue => rw [hqueue]; exact List.sublist_cons_self ..
  | begin | pass | produce | endPass | serve | stall | resume | endPush =>
    exact List.Sublist.refl _

theorem move (h : Traced s log) (hmove : Stream.Move s s' events) :
    Traced s' (log ++ events) := by
  cases hmove with
  | still => exact h.of_quiet rfl (Nat.le_refl _) (fun _ _ _ _ hc => hc) (by simp) (by simp)
  | @connect c context hopen hroom hid =>
    refine h.connect hid rfl (Mailboxes.next_add ..) fun id selector discriminator context' hc => ?_
    rcases List.mem_append.1 hc with hc | hc
    · exact .inl hc
    · cases List.mem_singleton.1 hc
      exact .inr ⟨rfl, rfl⟩
  | connectClosed hclosed hid =>
    exact h.connect hid rfl (Mailboxes.next_add ..) fun _ _ _ _ hc => .inl hc
  | disconnect c hopen hroom =>
    exact h.of_quiet rfl (Nat.le_refl _) (fun _ _ _ _ hc => by simpa using hc) (by simp) (by simp)
  | take hbox hmessages =>
    exact h.of_quiet rfl (Nat.le_of_eq (Mailboxes.next_modify ..).symm) (fun _ _ _ _ hc => hc)
      (by simp) (by simp)
  | leave number =>
    exact h.of_quiet rfl (Nat.le_of_eq (Mailboxes.next_modify ..).symm) (fun _ _ _ _ hc => hc)
      (by simp) (by simp)
  | close hopen => exact h.of_quiet rfl (Nat.le_refl _) (fun _ _ _ _ hc => hc) (by simp) (by simp)
  | work hturn =>
    exact h.of_quiet (hturn.serial_eq) (Nat.le_of_eq (hturn.next_eq).symm)
      (fun _ _ _ _ hc => (queue_of_turn hturn).subset hc) (not_opened_of_turn hturn)
      fun _ _ _ hm => established_of_turn hturn hm

end Traced

/-- Every connection was opened once, and joins where it was opened. -/
theorem Run.traced {s : Stream} {log : List Event} (h : Run s log) : Traced s log :=
  h.induct
    (fun _ _ _ _ _ _ =>
      { known := fun _ _ hc => nomatch hc
        unique := fun _ _ _ _ hc => nomatch hc
        of_queue := fun _ _ _ _ hc => nomatch hc
        of_place := fun _ _ hp => nomatch hp })
    fun _ ih hmove => ih.move hmove

/-! ## The books between two jobs -/

/-- What the worker keeps agrees with itself and with the log. -/
structure Orderly (s : Stream) (log : List Event) : Prop where
  members_ne_nil : ∀ (place : Place) c, s.worker.index.find? place.1 place.2 = some c →
    c.members ≠ []
  bucket_ne_empty : ∀ selector bucket, s.worker.index.buckets.get? selector = some bucket →
    bucket.isEmpty = false
  /-- No connection is twice in the index. -/
  nodup : s.worker.index.members.Nodup
  /-- A member was opened once, for the place where it is. -/
  opened_of_mem : ∀ place, ∀ id ∈ s.worker.index.membersAt place,
    (∃ context, .opened ⟨id, place.1, place.2⟩ context ∈ log) ∧
      ∀ c context, .opened c context ∈ log → c.id = id → place = (c.selector, c.discriminator)
  /-- The members of a channel are those who joined there and neither left nor were found gone. -/
  mem_iff : ∀ place id,
    id ∈ s.worker.index.membersAt place ↔ (ledger id log).place = some place
  openConnections_eq : s.worker.counters.openConnections = s.worker.index.members.length
  /-- The openings and closings reported for a selector differ by its members. -/
  reports_eq : ∀ selector, openedIn (· = selector) log =
    closedIn (· = selector) log + s.worker.index.load (· = selector)
  channels_eq : s.worker.counters.channels = s.worker.index.count

theorem Enrolled.mem_membersAt_iff {s : Stream} {log : List Event} (h : Enrolled s log)
    (hphase : s.worker.phase = .idle) (place : Place) (id : ConnectionId) :
    id ∈ s.worker.index.membersAt place ↔ (ledger id log).place = some place := by
  rw [← Worker.roster_of_push?_eq_none (by rw [hphase]; rfl)]
  exact h.mem_roster_iff (by simp [hphase]) place id

theorem Enrolled.nodup_members {s : Stream} {log : List Event} (h : Enrolled s log)
    (hphase : s.worker.phase = .idle) : s.worker.index.members.Nodup := by
  have hroster := Worker.roster_of_push?_eq_none (w := s.worker) (by rw [hphase]; rfl)
  have hmembers : ∀ e ∈ s.worker.index.channels,
      e.2.members = s.worker.index.membersAt e.1 := fun e he =>
    (ChannelIndex.membersAt_of_find? (ChannelIndex.mem_channels_iff.1 he)).symm
  refine List.nodup_flatMap.2 ⟨fun e he => ?_, ?_⟩
  · rw [hmembers e he, ← hroster]
    exact h.roster_nodup e.1
  · have hplaces : s.worker.index.channels.Pairwise fun e f => e.1 ≠ f.1 :=
      List.pairwise_map.1 (ChannelIndex.places_eq_map _ ▸ ChannelIndex.nodup_places _)
    refine hplaces.imp_of_mem fun {e f} he hf hne id hid hid' => ?_
    have hplace := (h.mem_membersAt_iff hphase e.1 id).1 (hmembers e he ▸ hid)
    rw [(h.mem_membersAt_iff hphase f.1 id).1 (hmembers f hf ▸ hid')] at hplace
    exact hne (Option.some.inj hplace).symm

theorem Run.orderly_of_idle {s : Stream} {log : List Event} (h : Run s log)
    (hphase : s.worker.phase = .idle) : Orderly s log := by
  have hrunning : s.worker.phase ≠ .stopped := by simp [hphase]
  have hpruned : s.worker.phase.pruned = [] := by rw [hphase]; rfl
  have hbalanced := h.balanced
  refine
    { members_ne_nil := fun place c hfind hnil => ?_
      bucket_ne_empty := hbalanced.tight
      nodup := h.enrolled.nodup_members hphase
      opened_of_mem := fun place id hid => ?_
      mem_iff := h.enrolled.mem_membersAt_iff hphase
      openConnections_eq := ?_
      reports_eq := fun selector => ?_
      channels_eq := hbalanced.channels_eq }
  · have hgone := hbalanced.mem_pruned_of_empty place c hfind hnil
    rw [hpruned] at hgone
    cases hgone
  · obtain ⟨context, hopened⟩ :=
      h.traced.of_place id place ((h.enrolled.mem_membersAt_iff hphase place id).1 hid)
    refine ⟨⟨context, hopened⟩, fun c context' hc heq => ?_⟩
    rw [h.traced.unique c _ _ _ hc hopened heq]
  · rw [hbalanced.openConnections_eq, hpruned, ChannelIndex.length_members]
    rfl
  · rw [hbalanced.reports_eq hrunning, hpruned]
    rfl

/-- A step of the worker reports as many connections closed as the gauge shows, or fewer. -/
theorem Balanced.closedIn_le {s : Stream} {log events : List Event} {e : Engine}
    {next : Stream.Step} (h : Balanced s.worker log) (hturn : Stream.Turn e s next events) :
    closedIn (fun _ => true) events ≤ s.worker.counters.openConnections := by
  cases hturn with
  | join =>
    rw [closedIn_joined, closedIn_greeting]
    exact Nat.zero_le _
  | @depart id selector discriminator queue c hphase hqueue hfind hmember =>
    have hleave := load_leave (selector, discriminator) hfind hmember fun _ => true
    rw [h.openConnections_eq, ← hleave]
    change 1 ≤ _
    rw [if_pos rfl]
    omega
  | endPass hphase =>
    rw [Worker.endPass_snd, closedIn_closings, h.openConnections_eq, hphase]
    exact Nat.le_add_left ..
  | serve =>
    rw [closedIn_append, closedIn_trace]
    cases Mailboxes.get? _ _ <;> exact Nat.zero_le _
  | endPush =>
    rw [Worker.endPush_snd, closedIn_report]
    exact Nat.zero_le _
  | stop | refuse | ignore | begin | pass | produce | stall | resume => exact Nat.zero_le _

/-- **Between two jobs a stream is orderly**, and no step of the worker takes more connections off
the gauge than the gauge shows. -/
theorem Run.orderly {s : Stream} {log : List Event} (h : Run s log) :
    (s.worker.phase = .idle → Orderly s log) ∧
      ∀ e next, Stream.step? e s = some next →
        closedIn (fun _ => true) (s.observe e next) ≤ s.worker.counters.openConnections :=
  ⟨h.orderly_of_idle, fun _ _ hstep => h.balanced.closedIn_le (Stream.turn_of_step? hstep)⟩

/-- Of two connections one is found gone by a pass and pruned, and the other is about to be
closed. -/
theorem orderly_after_prune :
    ∃ s log e next, Run s log ∧ s.worker.phase = .idle ∧ s.worker.index.members = [⟨0, 1⟩] ∧
      Stream.step? e s = some next ∧ closedIn (fun _ => true) (s.observe e next) = 1 ∧
      Orderly s log ∧
      closedIn (fun _ => true) (s.observe e next) ≤ s.worker.counters.openConnections := by
  let e := trialEngine false
  let acts : List Stream.Act :=
    [.connect (.flag "f") none, .connect .all none, .work e, .work e, .leave 0] ++
      List.replicate 8 (.work (trialEngine true)) ++ [.disconnect ⟨⟨0, 1⟩, .all, 0⟩]
  let last := ((trialStream .dropNewest).acts? acts).get (by decide)
  let next := (Stream.step? e last.1).get (by decide)
  have hrun : Run last.1 ([] ++ last.2) :=
    (run_trialStream .dropNewest).acts (Option.some_get _).symm
  have hidle : last.1.worker.phase = .idle := by rfl
  have hstep : Stream.step? e last.1 = some next := (Option.some_get _).symm
  exact ⟨last.1, last.2, e, next, hrun, hidle, by decide, hstep, by decide,
    hrun.orderly.1 hidle, hrun.orderly.2 e next hstep⟩

end FlagFanout
