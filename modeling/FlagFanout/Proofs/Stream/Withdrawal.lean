import FlagFanout.Proofs.Stream.Courses

/-!
# Closing one connection

A command to close a connection names the place where the connection should be. If it is no member
there, whether because it was closed before, found gone by a pass or never there, nothing happens at
all. If it is, exactly that member leaves (`Withdraws`), and nobody else is any the wiser: whatever
the worker does afterwards, those who remain get the messages that they would have got anyway.

The last statement compares two courses of a worker, one after the close and one without it. They
may differ in everything but the jobs as they concern one connection that remains: the pass that
waits for the mailbox of the closed connection in one of them has nothing to wait for in the other.
It is an instance of `Worker.Course.placed_eq`, since closing one connection changes the outlook of
no other.
-/

namespace FlagFanout

/-! ## One member less -/

theorem Channel.isEmpty_leave_iff {c : Channel} {id : ConnectionId} (hmember : id ∈ c.members) :
    (c.leave id).isEmpty = true ↔ c.members = [id] := by
  rw [isEmpty, List.isEmpty_iff, leave, List.erase_eq_nil_iff]
  refine or_iff_right fun hnil => ?_
  rw [hnil] at hmember
  cases hmember

namespace ChannelIndex

/-- The index once a member of a channel left. -/
def leave (i : ChannelIndex) (place : Place) (c : Channel) (id : ConnectionId) : ChannelIndex :=
  (i.put place.1 place.2 (c.leave id)).collect place.1 place.2

variable {i : ChannelIndex} {place : Place} {c : Channel} {id : ConnectionId}

/-- The channel goes if nobody is left in it. -/
theorem find?_leave (i : ChannelIndex) (place place' : Place) (hmember : id ∈ c.members) :
    (i.leave place c id).find? place'.1 place'.2 =
      if place' = place then if c.members = [id] then none else some (c.leave id)
      else i.find? place'.1 place'.2 := by
  rw [leave, find?_collect, find?_put_self, Option.any_some, find?_put]
  by_cases hplace : place' = place
  · rw [if_pos hplace, if_pos hplace]
    exact if_congr ((and_iff_right hplace).trans (Channel.isEmpty_leave_iff hmember)) rfl rfl
  · rw [if_neg fun hc => hplace hc.1, if_neg hplace, if_neg hplace]

/-- Nobody becomes a member. -/
theorem mem_of_mem_leave (hfind : i.find? place.1 place.2 = some c) {place' : Place}
    {id' : ConnectionId} (hid' : id' ∈ (i.leave place c id).membersAt place') :
    id' ∈ i.membersAt place' := by
  rw [leave, membersAt_collect, membersAt_put] at hid'
  split at hid'
  · next hplace =>
    rw [hplace, membersAt_of_find? hfind]
    exact List.mem_of_mem_erase hid'
  · exact hid'

/-- The number of channels falls by one where a channel goes. -/
theorem count_leave (hfind : i.find? place.1 place.2 = some c) (hmember : id ∈ c.members) :
    (i.leave place c id).count + (if c.members = [id] then 1 else 0) = i.count := by
  have hput := find?_put_self i place (c.leave id)
  by_cases hlast : c.members = [id]
  · have hnobody : (c.leave id).members = [] := by
      rw [Channel.leave, hlast, List.erase_cons_head]
    rw [if_pos hlast, leave, count, count, (collect_channels_perm_others hput hnobody).length_eq,
      (others_put i place _).length_eq, (channels_perm_of_find? hfind).length_eq, List.length_cons]
  · have hstays : ∀ d, (i.put place.1 place.2 (c.leave id)).find? place.1 place.2 = some d →
        d.members ≠ [] := by
      intro d hd hnil
      obtain rfl := Option.some.inj (hput.symm.trans hd)
      exact hlast ((Channel.isEmpty_leave_iff hmember).1 (List.isEmpty_iff.2 hnil))
    have hsame := perm_of_find? (find?_collect_of_members hstays)
    rw [if_neg hlast, Nat.add_zero, leave, count, hsame.length_eq]
    exact count_put_of_find? hfind _

/-- The bucket goes with its last channel. -/
theorem bucket_leave_eq_none_iff (htight : i.Tight) (hmember : id ∈ c.members) :
    (i.leave place c id).buckets.get? place.1 = none ↔
      c.members = [id] ∧ ∀ discriminator, discriminator ≠ place.2 →
        i.find? place.1 discriminator = none := by
  have htight' : (i.leave place c id).Tight := (htight.put place (c.leave id)).collect place
  have hother : ∀ {discriminator}, discriminator ≠ place.2 →
      (i.leave place c id).find? place.1 discriminator = i.find? place.1 discriminator := by
    intro discriminator hne
    refine (find?_leave i place (place.1, discriminator) hmember).trans (if_neg fun heq => ?_)
    exact hne (congrArg Prod.snd heq)
  have hself := (find?_leave i place place hmember).trans (if_pos rfl)
  rw [htight'.get?_buckets_eq_none_iff]
  constructor
  · intro hnone
    refine ⟨by_contra fun hmore => ?_, fun discriminator hne => ?_⟩
    · rw [hnone, if_neg hmore] at hself
      cases hself
    · rw [← hother hne, hnone]
  · rintro ⟨hlast, hnone⟩ discriminator
    by_cases heq : discriminator = place.2
    · rw [heq, hself, if_pos hlast]
    · rw [hother heq, hnone discriminator heq]

theorem bucket_leave_of_ne {selector : Selector} (hne : selector ≠ place.1) :
    (i.leave place c id).buckets.get? selector = i.buckets.get? selector := by
  rw [leave, get?_buckets_collect, if_neg hne]
  exact (KeyMap.get?_insert ..).trans (if_neg hne)

end ChannelIndex

namespace Worker

variable {w : Worker} {place : Place} {c : Channel} {id : ConnectionId}

/-- A member leaves its channel. -/
theorem close_of_mem (hfind : w.index.find? place.1 place.2 = some c) (hmember : id ∈ c.members) :
    w.close id place.1 place.2 =
      (({ w with index := w.index.leave place c id }.recount).retire,
        [.metric (.closed place.1)]) := by
  unfold close
  rw [hfind]
  exact if_pos hmember

/-- Whoever is no member where it is said to be is not closed. -/
theorem close_of_notMem (hnot : id ∉ w.index.membersAt place) :
    w.close id place.1 place.2 = (w, []) := by
  rcases w.close_cases id place with ⟨hclose, -⟩ | ⟨c, hfind, hmember, -⟩
  · exact hclose
  · rw [ChannelIndex.membersAt_of_find? hfind] at hnot
    exact absurd hmember hnot

end Worker

/-! ## Jobs to come -/

/-- The connections that some jobs register wait for that already, or are still to be opened. -/
def Stream.Awaits (s : Stream) (jobs : List Job) : Prop :=
  ∀ id ∈ Job.newcomers jobs, id ∈ newcomers s.queue ∨ s.mailboxes.next ≤ id.number

/-- A number is given to one connection only, so no member is registered again. -/
theorem Enrolled.number_ne {s : Stream} {log : List Event} (h : Enrolled s log)
    (hphase : s.worker.phase = .idle) {place : Place} {id : ConnectionId}
    (hid : id ∈ s.worker.index.membersAt place) {jobs : List Job} (hjobs : s.Awaits jobs) :
    ∀ id' ∈ Job.newcomers jobs, id'.number ≠ id.number := by
  intro id' hid' hnumber
  have hplace := (h.mem_membersAt_iff hphase place id).1 hid
  have hheard : ledger id log ≠ .blank := fun hblank => by
    rw [hblank] at hplace
    cases hplace
  obtain ⟨hstream, hlt⟩ := h.known id (.inr hheard)
  rcases hjobs id' hid' with hwaits | hlater
  · obtain ⟨hstream', -⟩ := h.known id' (.inl hwaits)
    have hsame : id' = id := by
      obtain ⟨stream, number⟩ := id
      obtain ⟨stream', number'⟩ := id'
      exact congrArg₂ ConnectionId.mk (hstream'.trans hstream.symm) hnumber
    exact hheard (hsame ▸ h.blank_of_newcomer id' hwaits)
  · omega

/-! ## Everybody else -/

/-- What it comes to that a member of a channel is closed between two jobs. -/
structure Withdraws (s : Stream) (id : ConnectionId) (place : Place) (c : Channel)
    (r : Worker.Result) : Prop where
  /-- The member is not anywhere any more. -/
  notMem : ∀ place', id ∉ r.worker.index.membersAt place'
  /-- Its channel keeps what it holds, and the other members in their order; it goes with the last
  member. -/
  channel_eq : r.worker.index.find? place.1 place.2 =
    if c.members = [id] then none else some { c with members := c.members.erase id }
  others_eq : ∀ place' : Place, place' ≠ place →
    r.worker.index.find? place'.1 place'.2 = s.worker.index.find? place'.1 place'.2
  /-- The bucket of the selector goes with its last channel. -/
  bucket_eq_none_iff : r.worker.index.buckets.get? place.1 = none ↔
    c.members = [id] ∧ ∀ discriminator, discriminator ≠ place.2 →
      s.worker.index.find? place.1 discriminator = none
  other_buckets_eq : ∀ selector, selector ≠ place.1 →
    r.worker.index.buckets.get? selector = s.worker.index.buckets.get? selector
  phase_eq : r.worker.phase = s.worker.phase
  openConnections_eq :
    r.worker.counters.openConnections + 1 = s.worker.counters.openConnections
  channels_eq : r.worker.counters.channels + (if c.members = [id] then 1 else 0) =
    s.worker.counters.channels
  sent_eq : r.worker.counters.sent = s.worker.counters.sent
  dropped_eq : r.worker.counters.dropped = s.worker.counters.dropped
  mailboxes_eq : r.mailboxes = s.mailboxes
  effects_eq : r.effects = [.metric (.closed place.1)]
  /-- Whatever the worker does next, nothing is placed in the mailbox of the closed connection. -/
  placed_eq_nil : ∀ {policy jobs fx w' boxes'}, s.Awaits jobs →
    Worker.Course policy id r.worker r.mailboxes jobs fx w' boxes' →
      placed id (fx.map .effect) = []
  /-- Whoever remains gets what it would have got without the close, and has the same in its
  mailbox. -/
  placed_eq : ∀ {place' id'}, id' ∈ r.worker.index.membersAt place' →
    ∀ {policy jobs fx fx' w₁ w₂ boxes₁ boxes₂}, s.Awaits jobs →
      Worker.Course policy id' r.worker r.mailboxes jobs fx w₁ boxes₁ →
        Worker.Course policy id' s.worker s.mailboxes jobs fx' w₂ boxes₂ →
          placed id' (fx.map .effect) = placed id' (fx'.map .effect) ∧
            boxes₁.get? id'.number = boxes₂.get? id'.number

namespace Run

variable {s : Stream} {log : List Event} {place : Place} {c : Channel} {id : ConnectionId}

/-- What a member that is closed has to look forward to. -/
theorem shows_close_self (h : Run s log) (hphase : s.worker.phase = .idle)
    (hfind : s.worker.index.find? place.1 place.2 = some c) (hmember : id ∈ c.members) :
    ∃ box, (s.worker.close id place.1 place.2).1.Shows s.mailboxes id ⟨none, box⟩ := by
  obtain ⟨box, hshows⟩ := h.shows hphase hfind hmember
  have hclose := (hshows.close id place.1 place.2).1
  rw [Outlook.command, if_pos ⟨rfl, rfl⟩] at hclose
  exact ⟨box, hclose⟩

/-- What the others have to look forward to, before and after. -/
theorem shows_close_other (h : Run s log) (hphase : s.worker.phase = .idle) {place' : Place}
    {id' : ConnectionId} (hid' : id' ∈ s.worker.index.membersAt place') (hne : id' ≠ id) :
    ∃ o, s.worker.Shows s.mailboxes id' o ∧
      (s.worker.close id place.1 place.2).1.Shows s.mailboxes id' o := by
  obtain ⟨d, hfind, hmember⟩ := ChannelIndex.exists_find?_of_mem_membersAt hid'
  obtain ⟨box, hshows⟩ := h.shows hphase hfind hmember
  have hclose := (hshows.close id place.1 place.2).1
  rw [Outlook.command, if_neg fun hc => hne hc.1.symm] at hclose
  exact ⟨_, hshows, hclose⟩

theorem withdraws_of_mem (h : Run s log) (hphase : s.worker.phase = .idle)
    (hfind : s.worker.index.find? place.1 place.2 = some c) (hmember : id ∈ c.members) :
    Withdraws s id place c ⟨(s.worker.close id place.1 place.2).1, s.mailboxes,
      (s.worker.close id place.1 place.2).2⟩ := by
  obtain ⟨box, hself⟩ := h.shows_close_self hphase hfind hmember
  have hclose := Worker.close_of_mem hfind hmember
  have horderly := h.orderly_of_idle hphase
  have hgone : ∀ place', id ∉ (s.worker.index.leave place c id).membersAt place' := by
    intro place' hin
    have hroster := Worker.roster_of_push?_eq_none hself.push?_eq_none place'
    rw [hclose] at hself hroster
    cases (hself.sits.eq_of_mem (hroster ▸ hin) rfl).2
  have hfew : 1 ≤ s.worker.counters.openConnections := by
    rw [horderly.openConnections_eq]
    refine List.length_pos_of_mem (List.mem_flatMap.2 ⟨(place, c), ?_, hmember⟩)
    exact ChannelIndex.mem_channels_iff.2 hfind
  have hmemberAt : id ∈ s.worker.index.membersAt place := by
    rwa [ChannelIndex.membersAt_of_find? hfind]
  have hcount := ChannelIndex.count_leave hfind hmember
  have hfound := fun place' => s.worker.index.find?_leave place place' hmember
  rw [hclose] at hself ⊢
  exact
    { notMem := hgone
      channel_eq := (hfound place).trans (if_pos rfl)
      others_eq := fun place' hne => (hfound place').trans (if_neg hne)
      bucket_eq_none_iff := ChannelIndex.bucket_leave_eq_none_iff h.balanced.tight hmember
      other_buckets_eq := fun selector => ChannelIndex.bucket_leave_of_ne
      phase_eq := rfl
      openConnections_eq := Nat.sub_add_cancel hfew
      channels_eq := hcount.trans horderly.channels_eq.symm
      sent_eq := rfl
      dropped_eq := rfl
      mailboxes_eq := rfl
      effects_eq := rfl
      placed_eq_nil := fun hjobs hcourse =>
        hcourse.placed_eq_nil hself rfl (h.enrolled.number_ne hphase hmemberAt hjobs)
      placed_eq := fun {place' id'} hid' {_ _ _ _ _ _ _ _} hjobs hcourse hcourse' => by
        have hne : id' ≠ id := fun heq => hgone place' (heq ▸ hid')
        have hstayed := ChannelIndex.mem_of_mem_leave hfind hid'
        obtain ⟨o, hshows, hshows'⟩ := h.shows_close_other hphase hstayed hne
        rw [hclose] at hshows'
        have hnew := h.enrolled.number_ne hphase hstayed hjobs
        exact hcourse.placed_eq hshows' hshows hnew hcourse' }

/-- **Closing one connection touches only that connection.** -/
theorem withdraws (h : Run s log) (hphase : s.worker.phase = .idle) (policy : DeliveryPolicy)
    (ev : Evaluator) (id : ConnectionId) (selector : Selector) (discriminator : UInt64) :
    ∃ r, s.worker.handle policy ev s.mailboxes (.closed id selector discriminator) = some r ∧
      (id ∉ s.worker.index.membersAt (selector, discriminator) →
        r = ⟨s.worker, s.mailboxes, []⟩) ∧
      ∀ c, s.worker.index.find? selector discriminator = some c → id ∈ c.members →
        Withdraws s id (selector, discriminator) c r := by
  let place : Place := (selector, discriminator)
  refine ⟨⟨(s.worker.close id place.1 place.2).1, s.mailboxes,
    (s.worker.close id place.1 place.2).2⟩, rfl, fun hnot => ?_, fun c hfind hmember => ?_⟩
  · rw [Worker.close_of_notMem hnot]
  · exact withdraws_of_mem h hphase hfind hmember

end Run

/-- Where nobody has to be waited for, a pass comes to its end without anybody taking anything, and
is a course to every member. -/
theorem Run.exists_course {s : Stream} {log : List Event} (h : Run s log)
    (hphase : s.worker.phase = .idle) {place : Place} {id : ConnectionId}
    (hid : id ∈ s.worker.index.membersAt place) (engine : Place → Evaluator) :
    ∃ fx w' boxes', Worker.Course .dropNewest id s.worker s.mailboxes [.pass engine [] []] fx w'
        boxes' ∧
      placed id (fx.map .effect) = placed id ((((Sweep.fresh s.worker.index s.mailboxes).visitAll
        engine s.worker.index.places).result s.worker.counters).effects.map .effect) := by
  obtain ⟨c, hfind, hmember⟩ := ChannelIndex.exists_find?_of_mem_membersAt hid
  obtain ⟨box, hshows⟩ := h.shows hphase hfind hmember
  obtain ⟨site, hparted⟩ := h.parted hphase
  let places := s.worker.index.places
  have hcomes : Worker.ComesTo .dropNewest engine (s.worker.beginPass places) s.mailboxes _ :=
    Sweep.comesTo_result hparted s.mailboxes s.worker.counters places
  obtain ⟨ahead, behind, fx, hpass, htakes, hplaced⟩ :=
    hshows.makesPass_of_passing (.refl _) ((hcomes _ _ _).2 ⟨rfl, rfl, rfl⟩)
  rw [Worker.takes_effects, List.append_eq_nil_iff] at htakes
  obtain ⟨rfl, rfl⟩ := htakes
  refine ⟨fx ++ [], _, _, .pass hpass (.done _ _), ?_⟩
  rw [List.append_nil]
  exact hplaced

/-- One of two members of a channel is closed before a change; the other is told of the change as
it would have been anyway. -/
theorem withdraws_beside_member :
    ∃ s log r, Run s log ∧ s.worker.phase = .idle ∧
      s.worker.index.membersAt (.flag "f", 0) = [⟨0, 0⟩, ⟨0, 1⟩] ∧
      s.worker.handle .dropNewest (trialEngine false).evaluator s.mailboxes
        (.closed ⟨0, 0⟩ (.flag "f") 0) = some r ∧
      r.worker.index.membersAt (.flag "f", 0) = [⟨0, 1⟩] ∧
      (∃ c, Withdraws s ⟨0, 0⟩ (.flag "f", 0) c r) ∧
      ∃ fx fx' w₁ w₂ boxes₁ boxes₂,
        let jobs : List Job := [.pass (fun _ => (trialEngine true).evaluator) [] []]
        Worker.Course .dropNewest ⟨0, 1⟩ r.worker r.mailboxes jobs fx w₁ boxes₁ ∧
          Worker.Course .dropNewest ⟨0, 1⟩ s.worker s.mailboxes jobs fx' w₂ boxes₂ ∧
          placed ⟨0, 1⟩ (fx.map .effect) = [.flag ⟨some (.bool true), "f.default"⟩] ∧
          placed ⟨0, 1⟩ (fx'.map .effect) = [.flag ⟨some (.bool true), "f.default"⟩] := by
  let e := trialEngine false
  let acts : List Stream.Act :=
    [.connect (.flag "f") none, .connect (.flag "f") none, .work e, .work e, .take 1]
  let last := ((trialStream .dropNewest).acts? acts).get (by decide)
  let closing : List Stream.Act := [.disconnect ⟨⟨0, 0⟩, .flag "f", 0⟩, .work e]
  let next := (last.1.acts? closing).get (by decide)
  have hrun : Run last.1 ([] ++ last.2) :=
    (run_trialStream .dropNewest).acts (Option.some_get _).symm
  have hnext : Run next.1 ([] ++ last.2 ++ next.2) := hrun.acts (Option.some_get _).symm
  have hidle : last.1.worker.phase = .idle := by rfl
  have hidle' : next.1.worker.phase = .idle := by rfl
  have hmembers : last.1.worker.index.membersAt (.flag "f", 0) = [⟨0, 0⟩, ⟨0, 1⟩] := by decide
  have hmembers' : next.1.worker.index.membersAt (.flag "f", 0) = [⟨0, 1⟩] := by decide
  have hleaving : (⟨0, 0⟩ : ConnectionId) ∈ last.1.worker.index.membersAt (.flag "f", 0) := by
    simp [hmembers]
  have hstaying : (⟨0, 1⟩ : ConnectionId) ∈ last.1.worker.index.membersAt (.flag "f", 0) := by
    simp [hmembers]
  have hstaying' : (⟨0, 1⟩ : ConnectionId) ∈ next.1.worker.index.membersAt (.flag "f", 0) := by
    simp [hmembers']
  obtain ⟨r, hr, -, hwithdraws⟩ :=
    hrun.withdraws hidle .dropNewest e.evaluator ⟨0, 0⟩ (.flag "f") 0
  obtain rfl : ⟨next.1.worker, next.1.mailboxes, [.metric (.closed (.flag "f"))]⟩ = r :=
    Option.some.inj hr
  obtain ⟨c, hfind, hmember⟩ := ChannelIndex.exists_find?_of_mem_membersAt hleaving
  let engine : Place → Evaluator := fun _ => (trialEngine true).evaluator
  obtain ⟨fx, w₁, boxes₁, hcourse, hplaced⟩ :=
    hnext.exists_course hidle' hstaying' engine
  obtain ⟨fx', w₂, boxes₂, hcourse', hplaced'⟩ :=
    hrun.exists_course hidle hstaying engine
  exact ⟨last.1, last.2, _, hrun, hidle, hmembers, hr, hmembers', ⟨c, hwithdraws c hfind hmember⟩,
    fx, fx', w₁, w₂, boxes₁, boxes₂, hcourse, hcourse', hplaced.trans (by decide +kernel),
    hplaced'.trans (by decide +kernel)⟩

end FlagFanout
