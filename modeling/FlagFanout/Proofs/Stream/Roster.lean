import FlagFanout.Proofs.Stream.Ledger

/-!
# Who is a member

The index tells who the members of a channel are only while nothing is pushed to it: during a push
it still lists those who were found gone. `Worker.roster` is the list of members at every moment.

`Run.enrolled` says that rosters and log agree: a connection is on the roster of a place if and only
if, by the log, it joined there and has neither left nor been found gone since.
-/

namespace FlagFanout

/-! ## Rosters -/

namespace Worker

/-- The members of the channel at a place, without those whom a push found gone. -/
def roster (w : Worker) (place : Place) : List ConnectionId :=
  match w.phase.push? with
  | some push =>
    if push.place = place then push.served ++ push.waiting else w.index.membersAt place
  | none => w.index.membersAt place

theorem roster_of_push?_eq_none {w : Worker} (h : w.phase.push? = none) (place : Place) :
    w.roster place = w.index.membersAt place := by
  simp only [roster, h]

theorem roster_of_push? {w : Worker} {push : Push} (h : w.phase.push? = some push)
    (place : Place) :
    w.roster place =
      if push.place = place then push.served ++ push.waiting else w.index.membersAt place := by
  simp only [roster, h]

/-- Whoever a push has still to serve is on the roster. -/
theorem mem_roster_of_waiting {w : Worker} {push : Push} {id : ConnectionId}
    {waiting : List ConnectionId} (h : w.phase.push? = some push)
    (hwaiting : push.waiting = id :: waiting) : id ∈ w.roster push.place := by
  rw [roster_of_push? h, if_pos rfl, hwaiting]
  exact List.mem_append_right _ List.mem_cons_self

/-- The roster depends on the members and on the push alone. -/
theorem roster_congr {w w' : Worker} (hphase : w'.phase.push? = w.phase.push?)
    (hmembers : ∀ place, w'.index.membersAt place = w.index.membersAt place) (place : Place) :
    w'.roster place = w.roster place := by
  simp only [roster, hphase, hmembers]

theorem channelFor_members (w : Worker) (ev : Evaluator) (selector : Selector)
    (discriminator : UInt64) (context : Option Context) :
    (w.channelFor ev selector discriminator context).members =
      w.index.membersAt (selector, discriminator) := by
  rw [channelFor, ChannelIndex.membersAt]
  cases w.index.find? selector discriminator <;> rfl

@[simp] theorem membersAt_collected (i : ChannelIndex) (pruned : List (Place × Nat))
    (place : Place) : (collected i pruned).membersAt place = i.membersAt place := by
  induction pruned generalizing i with
  | nil => rfl
  | cons e rest ih =>
    rw [collected, List.foldl_cons, ← collected, ih, ChannelIndex.membersAt_collect]

section Members

variable {w : Worker} {selector : Selector} {discriminator : UInt64} {c : Channel}

/-- Whoever joins comes last on the roster. -/
theorem roster_join {ev : Evaluator} {context : Option Context} {t : Tally} {id : ConnectionId}
    (hpush : w.phase.push? = none)
    (hchannel : w.channelFor ev selector discriminator context = c) (place : Place) :
    ((w.count t).join selector discriminator c id).roster place =
      if place = (selector, discriminator) then w.roster place ++ [id] else w.roster place := by
  have hmembers : c.members = w.roster (selector, discriminator) := by
    rw [← hchannel, channelFor_members, roster_of_push?_eq_none hpush]
  rw [roster_of_push?_eq_none (by exact hpush)]
  refine (ChannelIndex.membersAt_put w.index (selector, discriminator) place (c.join id)).trans ?_
  split
  · next heq => rw [heq, ← hmembers]; rfl
  · rw [roster_of_push?_eq_none hpush]

theorem roster_leave {id : ConnectionId} (hpush : w.phase.push? = none)
    (hfind : w.index.find? selector discriminator = some c) (place : Place) :
    roster ({ w with
      index := w.index.put selector discriminator (c.leave id) }.collect
        (selector, discriminator)).retire place =
      if place = (selector, discriminator) then (w.roster place).erase id else w.roster place := by
  have hmembers : w.roster (selector, discriminator) = c.members := by
    rw [roster_of_push?_eq_none hpush]
    exact ChannelIndex.membersAt_of_find? hfind
  rw [roster_of_push?_eq_none (by exact hpush)]
  have hcollect := ChannelIndex.membersAt_collect
    (w.index.put selector discriminator (c.leave id)) (selector, discriminator) place
  have hput := ChannelIndex.membersAt_put w.index (selector, discriminator) place (c.leave id)
  refine (hcollect.trans hput).trans ?_
  split
  · next heq => rw [heq, hmembers]; rfl
  · rw [roster_of_push?_eq_none hpush]

/-- Whoever a push finds gone is struck off the roster. -/
theorem roster_serve {pass : Pass} {push : Push} {id : ConnectionId}
    {waiting : List ConnectionId} {out : Attempt} (hpush : w.phase.push? = some push)
    (hwaiting : push.waiting = id :: waiting) (hnodup : (w.roster push.place).Nodup)
    (place : Place) :
    roster { w with
      phase := .pushing pass { push with
        served := if out = .disconnected then push.served else push.served ++ [id]
        waiting
        tally := push.tally + out.tally } } place =
      if place = push.place ∧ out = .disconnected then (w.roster place).erase id
      else w.roster place := by
  rw [roster_of_push? (w := { w with phase := _ }) rfl]
  by_cases hp : push.place = place
  · subst hp
    rw [roster_of_push? hpush, if_pos rfl, hwaiting] at hnodup ⊢
    by_cases hgone : out = .disconnected
    · have hserved : id ∉ push.served := fun hin =>
        (List.nodup_append'.1 hnodup).2.2 hin List.mem_cons_self
      simp [hgone, List.erase_append_right _ hserved]
    · simp [hgone]
  · have hother : ¬(place = push.place ∧ out = .disconnected) := fun hc => hp hc.1.symm
    refine (if_neg hp).trans ?_
    rw [if_neg hother, roster_of_push? hpush, if_neg hp]

end Members

end Worker

/-! ## Newcomers -/

/-- The connection that a command asks to register. -/
def Command.newcomer? : Command → Option ConnectionId
  | established id _ _ _ => some id
  | closed _ _ _ => none

/-- The connections that wait to be registered, in order. -/
def newcomers (queue : List Command) : List ConnectionId := queue.filterMap Command.newcomer?

@[simp] theorem newcomers_nil : newcomers [] = [] := rfl

@[simp] theorem newcomers_append (queue queue' : List Command) :
    newcomers (queue ++ queue') = newcomers queue ++ newcomers queue' := List.filterMap_append

@[simp] theorem newcomers_established (id : ConnectionId) (selector : Selector)
    (discriminator : UInt64) (context : Option Context) (queue : List Command) :
    newcomers (.established id selector discriminator context :: queue) = id :: newcomers queue :=
  rfl

@[simp] theorem newcomers_closed (id : ConnectionId) (selector : Selector)
    (discriminator : UInt64) (queue : List Command) :
    newcomers (.closed id selector discriminator :: queue) = newcomers queue := rfl

/-! ## Rosters and the log -/

/-- What the log knows of connections is what the stream knows of them. -/
structure Enrolled (s : Stream) (log : List Event) : Prop where
  /-- A connection that waits or of which something was heard is one of the stream's. -/
  known : ∀ id, id ∈ newcomers s.queue ∨ ledger id log ≠ .blank →
    id.stream = s.serial ∧ id.number < s.mailboxes.next
  newcomers_nodup : (newcomers s.queue).Nodup
  /-- Nothing was heard yet of a connection that waits. -/
  blank_of_newcomer : ∀ id ∈ newcomers s.queue, ledger id log = .blank
  find?_of_push? : ∀ push, s.worker.phase.push? = some push →
    ∃ c, s.worker.index.find? push.place.1 push.place.2 = some c
  roster_nodup : ∀ place, (s.worker.roster place).Nodup
  mem_roster_iff : s.worker.phase ≠ .stopped → ∀ place id,
    id ∈ s.worker.roster place ↔ (ledger id log).place = some place

namespace Enrolled

variable {s : Stream} {log : List Event}

theorem start (serial : Nat) (project engineName : String) (config : StreamConfig)
    (digest : List UInt8 → UInt64) (e : Engine) :
    Enrolled (Stream.start serial project engineName config digest e).1 [] where
  known id h := by
    rcases h with h | h
    · cases h
    · exact absurd rfl h
  newcomers_nodup := .nil
  blank_of_newcomer _ _ := rfl
  find?_of_push? _ h := nomatch h
  roster_nodup _ := .nil
  mem_roster_iff _ place id := by
    rw [Worker.roster_of_push?_eq_none rfl]
    simp [Stream.start, Worker.idle, Ledger.blank]

/-- A member is one of the stream's connections. -/
theorem known_of_mem (h : Enrolled s log) (hrunning : s.worker.phase ≠ .stopped) {place : Place}
    {id : ConnectionId} (hid : id ∈ s.worker.roster place) :
    id.stream = s.serial ∧ id.number < s.mailboxes.next := by
  refine h.known id (.inr fun hblank => ?_)
  have hplace := (h.mem_roster_iff hrunning place id).1 hid
  rw [hblank] at hplace
  cases hplace

/-- Where a connection is, by the log, there is a channel. -/
theorem exists_channel (h : Enrolled s log) (hrunning : s.worker.phase ≠ .stopped) {place : Place}
    {id : ConnectionId} (hplace : (ledger id log).place = some place) :
    ∃ c, s.worker.index.find? place.1 place.2 = some c := by
  have hid := (h.mem_roster_iff hrunning place id).2 hplace
  have hindex : id ∈ s.worker.index.membersAt place →
      ∃ c, s.worker.index.find? place.1 place.2 = some c := fun hid =>
    (ChannelIndex.exists_find?_of_mem_membersAt hid).imp fun _ hc => hc.1
  cases hpush : s.worker.phase.push? with
  | none =>
    rw [Worker.roster_of_push?_eq_none hpush] at hid
    exact hindex hid
  | some push =>
    rw [Worker.roster_of_push? hpush] at hid
    split at hid
    · next heq => exact heq ▸ h.find?_of_push? push hpush
    · exact hindex hid

/-- A connection is on the roster of one place at most. -/
theorem place_unique (h : Enrolled s log) (hrunning : s.worker.phase ≠ .stopped)
    {place place' : Place} {id : ConnectionId} (hid : id ∈ s.worker.roster place)
    (hid' : id ∈ s.worker.roster place') : place = place' := by
  have hplace := (h.mem_roster_iff hrunning place id).1 hid
  rw [(h.mem_roster_iff hrunning place' id).1 hid'] at hplace
  exact (Option.some.inj hplace).symm

/-- Where membership does not change, the queue can only have moved on. -/
theorem of_same {s' : Stream} {events : List Event} (h : Enrolled s log)
    (hserial : s'.serial = s.serial) (hnext : s.mailboxes.next ≤ s'.mailboxes.next)
    (hqueue : (newcomers s'.queue).Sublist (newcomers s.queue))
    (hrunning : s'.worker.phase ≠ .stopped → s.worker.phase ≠ .stopped)
    (hfind : ∀ push, s'.worker.phase.push? = some push →
      ∃ c, s'.worker.index.find? push.place.1 push.place.2 = some c)
    (hroster : ∀ place, s'.worker.roster place = s.worker.roster place)
    (hplace : ∀ id, (ledger id (log ++ events)).place = (ledger id log).place)
    (hblank : ∀ id, ledger id log = .blank → ledger id (log ++ events) = .blank) :
    Enrolled s' (log ++ events) where
  known id hid := by
    obtain ⟨hstream, hnumber⟩ := h.known id
      (hid.imp (fun hid => hqueue.subset hid) fun hid hold => hid (hblank id hold))
    exact ⟨hstream.trans hserial.symm, Nat.lt_of_lt_of_le hnumber hnext⟩
  newcomers_nodup := h.newcomers_nodup.sublist hqueue
  blank_of_newcomer id hid := hblank id (h.blank_of_newcomer id (hqueue.subset hid))
  find?_of_push? := hfind
  roster_nodup place := hroster place ▸ h.roster_nodup place
  mem_roster_iff hphase place id := by
    rw [hroster, hplace]
    exact h.mem_roster_iff (hrunning hphase) place id

/-- Outside a push, membership does not change while nobody joins or leaves. -/
theorem of_effects {s' : Stream} (effects : List Effect) (h : Enrolled s log)
    (hserial : s'.serial = s.serial) (hmailboxes : s'.mailboxes = s.mailboxes)
    (hqueue : (newcomers s'.queue).Sublist (newcomers s.queue))
    (hrunning : s.worker.phase ≠ .stopped) (hpush : s.worker.phase.push? = none)
    (hpush' : s'.worker.phase.push? = none)
    (hmembers : ∀ place, s'.worker.index.membersAt place = s.worker.index.membersAt place) :
    Enrolled s' (log ++ effects.map .effect) := by
  refine h.of_same hserial (hmailboxes ▸ Nat.le_refl _) hqueue (fun _ => hrunning)
    (fun push hp => ?_) (fun place => ?_) (fun id => by rw [ledger_append_effects])
    (fun id hblank => by rw [ledger_append_effects, hblank])
  · rw [hpush'] at hp
    cases hp
  · rw [Worker.roster_of_push?_eq_none hpush', Worker.roster_of_push?_eq_none hpush, hmembers]

/-! ### What clients do -/

theorem connect (h : Enrolled s log) (c : Connection) (context : Option Context)
    (hid : c.id = ⟨s.serial, s.mailboxes.next⟩) :
    Enrolled
      { s with
        mailboxes := s.mailboxes.add s.config.mailboxCapacity
        queue := s.queue ++ [.established c.id c.selector c.discriminator context] }
      (log ++ [.opened c context]) := by
  have hnew : c.id ∉ newcomers s.queue := by
    intro hmem
    have := (h.known c.id (.inl hmem)).2
    rw [hid] at this
    exact Nat.lt_irrefl _ this
  have hblank : ledger c.id log = .blank := by
    by_contra hne
    have := (h.known c.id (.inr hne)).2
    rw [hid] at this
    exact Nat.lt_irrefl _ this
  have hmem : ∀ id, id ∈ newcomers (s.queue ++
      [.established c.id c.selector c.discriminator context]) ↔
        id ∈ newcomers s.queue ∨ id = c.id := by
    simp [newcomers, Command.newcomer?]
  refine
    { known := fun id hid' => ?_
      newcomers_nodup := ?_
      blank_of_newcomer := fun id hid' => ?_
      find?_of_push? := h.find?_of_push?
      roster_nodup := h.roster_nodup
      mem_roster_iff := fun hphase place id => ?_ }
  · rw [hmem, ledger_opened, or_right_comm] at hid'
    rw [Mailboxes.next_add]
    rcases hid' with hid' | rfl
    · exact (h.known id hid').imp_right Nat.lt_succ_of_lt
    · exact hid ▸ ⟨rfl, Nat.lt_succ_self _⟩
  · rw [newcomers_append]
    exact List.nodup_append'.2 ⟨h.newcomers_nodup, by simp [newcomers, Command.newcomer?],
      by simpa [newcomers, Command.newcomer?] using hnew⟩
  · rw [ledger_opened]
    rcases (hmem id).1 hid' with hid' | rfl
    · exact h.blank_of_newcomer id hid'
    · exact hblank
  · rw [ledger_opened]
    exact h.mem_roster_iff hphase place id

/-! ### What the worker does -/

theorem join (h : Enrolled s log) {id : ConnectionId} {selector : Selector}
    {discriminator : UInt64} {context : Option Context} {queue : List Command} {c : Channel}
    {ev : Evaluator} {t : Tally} {policy : DeliveryPolicy} {effects : List Effect}
    (hphase : s.worker.phase = .idle)
    (hqueue : s.queue = .established id selector discriminator context :: queue)
    (hchannel : s.worker.channelFor ev selector discriminator context = c) :
    Enrolled
      { s with
        queue
        mailboxes := s.mailboxes.offer policy id.number c.last.message
        worker := (s.worker.count t).join selector discriminator c id }
      (log ++ .joined id (selector, discriminator) c.last.message :: effects.map .effect) := by
  have hrunning : s.worker.phase ≠ .stopped := by simp [hphase]
  have hpush : s.worker.phase.push? = none := by rw [hphase]; rfl
  have hnew : id ∈ newcomers s.queue := by rw [hqueue]; exact List.mem_cons_self
  have hblank := h.blank_of_newcomer id hnew
  have hnodup := h.newcomers_nodup
  rw [hqueue, newcomers_established, List.nodup_cons] at hnodup
  have hout : ∀ place, id ∉ s.worker.roster place := by
    intro place hmem
    have := (h.mem_roster_iff hrunning place id).1 hmem
    rw [hblank] at this
    cases this
  have hroster : ∀ place, ((s.worker.count t).join selector discriminator c id).roster place =
      if place = (selector, discriminator) then s.worker.roster place ++ [id]
      else s.worker.roster place := Worker.roster_join hpush hchannel
  refine
    { known := fun id' hid' => ?_
      newcomers_nodup := hnodup.2
      blank_of_newcomer := fun id' hid' => ?_
      find?_of_push? := fun push hp => ?_
      roster_nodup := fun place => ?_
      mem_roster_iff := fun _ place id' => ?_ }
  · rw [Mailboxes.next_offer]
    by_cases heq : id = id'
    · exact heq ▸ h.known id (.inl hnew)
    · rw [ledger_joined, if_neg heq] at hid'
      refine h.known id' (hid'.imp_left fun hid' => ?_)
      rw [hqueue]
      exact List.mem_cons_of_mem _ hid'
  · have hne : id ≠ id' := fun heq => hnodup.1 (heq ▸ hid')
    rw [ledger_joined, if_neg hne]
    refine h.blank_of_newcomer id' ?_
    rw [hqueue]
    exact List.mem_cons_of_mem _ hid'
  · exact absurd (hp.symm.trans hpush) (by simp)
  · rw [hroster]
    split
    · exact List.nodup_append'.2 ⟨h.roster_nodup place, by simp, by simpa using hout place⟩
    · exact h.roster_nodup place
  · rw [hroster, ledger_joined]
    by_cases heq : id = id'
    · subst heq
      rw [if_pos rfl]
      split
      · next hp => simp [hp]
      · next hp => simpa [hout place] using Ne.symm hp
    · rw [if_neg heq, ← h.mem_roster_iff hrunning place id']
      split
      · simp [Ne.symm heq]
      · rfl

theorem depart (effects : List Effect) (h : Enrolled s log) {id : ConnectionId}
    {selector : Selector} {discriminator : UInt64} {queue : List Command} {c : Channel}
    (hphase : s.worker.phase = .idle)
    (hqueue : s.queue = .closed id selector discriminator :: queue)
    (hfind : s.worker.index.find? selector discriminator = some c) (hmember : id ∈ c.members) :
    Enrolled
      { s with
        queue
        worker := ({ s.worker with
          index := s.worker.index.put selector discriminator (c.leave id) }.collect
            (selector, discriminator)).retire }
      (log ++ .closed id (selector, discriminator) :: effects.map .effect) := by
  have hrunning : s.worker.phase ≠ .stopped := by simp [hphase]
  have hpush : s.worker.phase.push? = none := by rw [hphase]; rfl
  have hmembers : s.worker.roster (selector, discriminator) = c.members := by
    rw [Worker.roster_of_push?_eq_none hpush]
    exact ChannelIndex.membersAt_of_find? hfind
  have hplace : (ledger id log).place = some (selector, discriminator) :=
    (h.mem_roster_iff hrunning _ id).1 (hmembers ▸ hmember)
  have hnewcomers : newcomers queue = newcomers s.queue := by rw [hqueue]; rfl
  have hledger : ∀ id', ledger id' (log ++ .closed id (selector, discriminator) ::
      effects.map .effect) =
        if id = id' then { ledger id log with place := none } else ledger id' log := by
    intro id'
    rw [ledger_closed]
    by_cases heq : id = id'
    · subst heq
      rw [if_pos ⟨rfl, hplace⟩, if_pos rfl]
    · rw [if_neg fun hc => heq hc.1, if_neg heq]
  have hroster : ∀ place, Worker.roster ({ s.worker with
      index := s.worker.index.put selector discriminator (c.leave id) }.collect
        (selector, discriminator)).retire place =
      if place = (selector, discriminator) then (s.worker.roster place).erase id
      else s.worker.roster place := Worker.roster_leave hpush hfind
  refine
    { known := fun id' hid' => ?_
      newcomers_nodup := hnewcomers ▸ h.newcomers_nodup
      blank_of_newcomer := fun id' hid' => ?_
      find?_of_push? := fun push hp => ?_
      roster_nodup := fun place => ?_
      mem_roster_iff := fun _ place id' => ?_ }
  · by_cases heq : id = id'
    · exact heq ▸ h.known_of_mem hrunning (hmembers ▸ hmember)
    · rw [hledger, if_neg heq, hnewcomers] at hid'
      exact h.known id' hid'
  · rw [hnewcomers] at hid'
    have hblank := h.blank_of_newcomer id' hid'
    rw [hledger, if_neg fun heq => ?_, hblank]
    rw [← heq] at hblank
    rw [hblank] at hplace
    cases hplace
  · exact absurd (hp.symm.trans hpush) (by simp)
  · rw [hroster]
    split
    · exact (h.roster_nodup place).erase id
    · exact h.roster_nodup place
  · rw [hroster, hledger]
    by_cases heq : id = id'
    · subst heq
      rw [if_pos rfl]
      split
      · simp [(h.roster_nodup place).mem_erase_iff]
      · next hp =>
        simpa using fun hmem => hp (h.place_unique hrunning hmem (hmembers ▸ hmember))
    · rw [if_neg heq, ← h.mem_roster_iff hrunning place id']
      split
      · simp [(h.roster_nodup place).mem_erase_iff, Ne.symm heq]
      · rfl

/-- The mailbox of a member that is next in a push. -/
theorem exists_box (h : Enrolled s log) {push : Push} {id : ConnectionId}
    {waiting : List ConnectionId} (hpush : s.worker.phase.push? = some push)
    (hwaiting : push.waiting = id :: waiting) :
    ∃ box, s.mailboxes.get? id.number = some box := by
  have hrunning : s.worker.phase ≠ .stopped := fun heq => by rw [heq] at hpush; cases hpush
  have hmem := Worker.mem_roster_of_waiting hpush hwaiting
  exact Mailboxes.exists_get?_of_lt (h.known_of_mem hrunning hmem).2

theorem serve (h : Enrolled s log) {pass : Pass} {push : Push} {id : ConnectionId}
    {waiting : List ConnectionId} {out : Attempt} {box : Mailbox} {policy : DeliveryPolicy}
    {effects : List Effect} (hphase : s.worker.phase = .pushing pass push)
    (hwaiting : push.waiting = id :: waiting)
    (hout : out = .disconnected ↔ box.listening = false) :
    Enrolled
      { s with
        mailboxes := s.mailboxes.offer policy id.number push.message
        worker := { s.worker with
          phase := .pushing pass { push with
            served := if out = .disconnected then push.served else push.served ++ [id]
            waiting
            tally := push.tally + out.tally } } }
      (log ++ ([.offered id push.message box] ++ effects.map .effect)) := by
  have hrunning : s.worker.phase ≠ .stopped := by simp [hphase]
  have hpush : s.worker.phase.push? = some push := by rw [hphase]; rfl
  have hmem := Worker.mem_roster_of_waiting hpush hwaiting
  have hplace := (h.mem_roster_iff hrunning push.place id).1 hmem
  have hroster : ∀ place, Worker.roster { s.worker with
      phase := .pushing pass { push with
        served := if out = .disconnected then push.served else push.served ++ [id]
        waiting
        tally := push.tally + out.tally } } place =
      if place = push.place ∧ out = .disconnected then (s.worker.roster place).erase id
      else s.worker.roster place :=
    Worker.roster_serve hpush hwaiting (h.roster_nodup push.place)
  refine
    { known := fun id' hid' => ?_
      newcomers_nodup := h.newcomers_nodup
      blank_of_newcomer := fun id' hid' => ?_
      find?_of_push? := fun push' hp => ?_
      roster_nodup := fun place => ?_
      mem_roster_iff := fun _ place id' => ?_ }
  · rw [Mailboxes.next_offer]
    by_cases heq : id = id'
    · exact heq ▸ h.known_of_mem hrunning hmem
    · rw [ledger_offered, if_neg heq] at hid'
      exact h.known id' hid'
  · have hblank := h.blank_of_newcomer id' hid'
    rw [ledger_offered, if_neg fun heq => ?_, hblank]
    rw [← heq] at hblank
    rw [hblank] at hplace
    cases hplace
  · cases hp
    exact h.find?_of_push? push hpush
  · rw [hroster]
    split
    · exact (h.roster_nodup place).erase id
    · exact h.roster_nodup place
  · rw [hroster, ledger_offered]
    by_cases heq : id = id'
    · subst heq
      rw [if_pos rfl]
      by_cases hgone : out = .disconnected
      · rw [hout.1 hgone]
        split
        · simp [(h.roster_nodup place).mem_erase_iff]
        · next hp =>
          simpa using fun hin => hp ⟨h.place_unique hrunning hin hmem, hgone⟩
      · have hlistening : box.listening = true := by simpa using mt hout.2 hgone
        rw [hlistening, if_neg fun hc => hgone hc.2]
        exact h.mem_roster_iff hrunning place id
    · rw [if_neg heq, ← h.mem_roster_iff hrunning place id']
      split
      · simp [(h.roster_nodup place).mem_erase_iff, Ne.symm heq]
      · rfl

theorem produce (h : Enrolled s log) {pass : Pass} {place : Place} {todo : List Place}
    {c : Channel} {last : Snapshot} {m : Message} (hphase : s.worker.phase = .visiting pass)
    (hfind : s.worker.index.find? place.1 place.2 = some c) :
    Enrolled
      { s with
        worker := { s.worker with
          index := s.worker.index.put place.1 place.2 { c with last }
          phase := .pushing { pass with todo } ⟨place, m, [], c.members, .zero⟩ } }
      (log ++ [.produced place m]) := by
  have hpush : s.worker.phase.push? = none := by rw [hphase]; rfl
  refine h.of_same rfl (Nat.le_refl _) (List.Sublist.refl _) (fun _ => by simp [hphase])
    (fun push hp => ?_) (fun place' => ?_) (fun id => ?_) (fun id hblank => ?_)
  · cases hp
    exact ⟨_, ChannelIndex.find?_put_self ..⟩
  · rw [Worker.roster_of_push? (w := { s.worker with index := _, phase := _ }) rfl,
      Worker.roster_of_push?_eq_none hpush]
    by_cases hp : place = place'
    · subst hp
      rw [ChannelIndex.membersAt_of_find? hfind]
      exact if_pos rfl
    · refine (if_neg hp).trans ((ChannelIndex.membersAt_put ..).trans ?_)
      rw [if_neg (Ne.symm hp)]
  · rw [ledger_produced]
    split <;> rfl
  · rw [ledger_produced, hblank]
    rfl

theorem endPush (h : Enrolled s log) {pass : Pass} {push : Push} {effects : List Effect}
    (hphase : s.worker.phase = .pushing pass push) (hwaiting : push.waiting = []) :
    Enrolled { s with worker := (s.worker.endPush pass push).1 }
      (log ++ effects.map .effect) := by
  have hpush : s.worker.phase.push? = some push := by rw [hphase]; rfl
  obtain ⟨c, hfind⟩ := h.find?_of_push? push hpush
  refine h.of_same rfl (Nat.le_refl _) (List.Sublist.refl _) (fun _ => by simp [hphase])
    (fun push' hp => ?_) (fun place => ?_) (fun id => by rw [ledger_append_effects])
    (fun id hblank => by rw [ledger_append_effects, hblank])
  · rw [Worker.endPush_phase] at hp
    cases hp
  · rw [Worker.roster_of_push?_eq_none (by rw [Worker.endPush_phase]; rfl),
      Worker.roster_of_push? hpush, Worker.endPush_of_find? hfind]
    refine (ChannelIndex.membersAt_put ..).trans ?_
    by_cases hp : push.place = place
    · rw [if_pos hp, if_pos hp.symm, hwaiting, List.append_nil]
    · rw [if_neg hp, if_neg (Ne.symm hp)]

theorem turn (h : Enrolled s log) {e : Engine} {next : Stream.Step} {events : List Event}
    (hturn : Stream.Turn e s next events) : Enrolled next.stream (log ++ events) := by
  cases hturn with
  | stop hclosed hattentive =>
    refine
      { known := fun id hid => h.known id (.inr ?_)
        newcomers_nodup := .nil
        blank_of_newcomer := fun id hid => nomatch hid
        find?_of_push? := fun push hp => nomatch hp
        roster_nodup := fun place => .nil
        mem_roster_iff := fun hp => absurd rfl hp }
    rw [ledger_append_nil] at hid
    exact hid.resolve_left fun hid => nomatch hid
  | @refuse id selector discriminator context queue c hphase hqueue hchannel hout =>
    refine h.of_effects [] rfl rfl (by rw [hqueue]; exact List.sublist_cons_self ..)
      (by simp [hphase]) (by rw [hphase]; rfl) (by exact congrArg Phase.push? hphase)
      fun place => ?_
    have hcollect := ChannelIndex.membersAt_collect
      (s.worker.index.put selector discriminator c) (selector, discriminator) place
    have hput := ChannelIndex.membersAt_put s.worker.index (selector, discriminator) place c
    refine (hcollect.trans hput).trans ?_
    split
    · next heq => rw [heq, ← hchannel, Worker.channelFor_members]
    · rfl
  | join hphase hqueue hchannel hattempt hout => exact h.join hphase hqueue hchannel
  | @ignore id selector discriminator queue hphase hqueue hmember =>
    have hrunning : s.worker.phase ≠ .stopped := by simp [hphase]
    have hplace : (ledger id log).place ≠ some (selector, discriminator) := by
      intro hp
      have hmem := (h.mem_roster_iff hrunning _ id).2 hp
      rw [Worker.roster_of_push?_eq_none (by rw [hphase]; rfl)] at hmem
      obtain ⟨c, hc, hid⟩ := ChannelIndex.exists_find?_of_mem_membersAt hmem
      exact hmember c hc hid
    have hledger : ∀ id', ledger id' (log ++ [.closed id (selector, discriminator)]) =
        ledger id' log := by
      intro id'
      refine (ledger_closed id' log id (selector, discriminator) []).trans (if_neg ?_)
      rintro ⟨rfl, hp⟩
      exact hplace hp
    exact h.of_same rfl (Nat.le_refl _) (by rw [hqueue]; exact List.Sublist.refl _)
      (fun _ => hrunning) (fun push hp => h.find?_of_push? push hp) (fun place => rfl)
      (fun id' => by rw [hledger]) (fun id' hblank => by rw [hledger, hblank])
  | depart hphase hqueue hfind hmember =>
    exact h.depart [.metric (.closed _)] hphase hqueue hfind hmember
  | begin hphase hqueue hpoll =>
    exact h.of_effects [] rfl rfl (List.Sublist.refl _) (by simp [hphase])
      (by rw [hphase]; rfl) rfl fun place => rfl
  | pass hphase htodo hquiet =>
    exact h.of_effects [] rfl rfl (List.Sublist.refl _) (by simp [hphase])
      (by rw [hphase]; rfl) rfl fun place => rfl
  | produce hphase htodo hfind hrefresh => exact h.produce hphase hfind
  | endPass hphase htodo =>
    exact h.of_effects _ rfl rfl (List.Sublist.refl _) (by simp [hphase]) (by rw [hphase]; rfl)
      (by rw [Worker.endPass_phase]; rfl)
      fun place => by rw [Worker.endPass_index, Worker.membersAt_collected]
  | @serve pass push id waiting out hphase hwaiting hattempt hout =>
    obtain ⟨box, hbox⟩ := h.exists_box (by rw [hphase]; rfl) hwaiting
    rw [hbox, Option.map_some, Option.toList_some]
    refine h.serve hphase hwaiting ?_
    rw [← hattempt, Mailboxes.attempt_of_get? hbox, Mailbox.attempt_eq_disconnected_iff]
  | @stall pass push id waiting hphase hwaiting hout =>
    have hpush : s.worker.phase.push? = some push := by rw [hphase]; rfl
    exact h.of_same rfl (Nat.le_refl _) (List.Sublist.refl _) (fun _ => by simp [hphase])
      (fun push' hp => h.find?_of_push? push' (hpush.trans hp))
      (Worker.roster_congr hpush.symm fun _ => rfl) (fun id => by rw [ledger_append_nil])
      fun id hblank => by rw [ledger_append_nil, hblank]
  | @resume pass push hphase hroom =>
    have hpush : s.worker.phase.push? = some push := by rw [hphase]; rfl
    exact h.of_same rfl (Nat.le_refl _) (List.Sublist.refl _) (fun _ => by simp [hphase])
      (fun push' hp => h.find?_of_push? push' (hpush.trans hp))
      (Worker.roster_congr hpush.symm fun _ => rfl) (fun id => by rw [ledger_append_nil])
      fun id hblank => by rw [ledger_append_nil, hblank]
  | endPush hphase hwaiting => exact h.endPush hphase hwaiting

/-- A client that opens no connection changes no membership. -/
theorem of_client {s' : Stream} {events : List Event} (h : Enrolled s log)
    (hserial : s'.serial = s.serial) (hworker : s'.worker = s.worker)
    (hnext : s.mailboxes.next ≤ s'.mailboxes.next)
    (hqueue : newcomers s'.queue = newcomers s.queue)
    (hledger : ∀ id, ledger id (log ++ events) = ledger id log) : Enrolled s' (log ++ events) :=
  h.of_same hserial hnext (by rw [hqueue])
    (fun hp => hworker ▸ hp) (fun push hp => by
      rw [hworker] at hp ⊢
      exact h.find?_of_push? push hp)
    (fun place => by rw [hworker]) (fun id => by rw [hledger])
    fun id hblank => by rw [hledger, hblank]

theorem move (h : Enrolled s log) {s' : Stream} {events : List Event}
    (hmove : Stream.Move s s' events) : Enrolled s' (log ++ events) := by
  cases hmove with
  | still => exact h.of_client rfl rfl (Nat.le_refl _) rfl fun id => by rw [ledger_append_nil]
  | connect hopen hroom hid => exact h.connect _ _ hid
  | connectClosed hclosed hid =>
    exact h.of_client rfl rfl (by rw [Mailboxes.next_add]; omega) rfl fun id => by
      rw [ledger_opened]
  | disconnect c hopen hroom =>
    exact h.of_client rfl rfl (Nat.le_refl _) (by simp [newcomers, Command.newcomer?])
      fun id => by rw [ledger_append_nil]
  | take hbox hmessages =>
    exact h.of_client rfl rfl (Nat.le_of_eq (Mailboxes.next_modify ..).symm) rfl fun id => by
      rw [ledger_taken]
  | leave number =>
    exact h.of_client rfl rfl (Nat.le_of_eq (Mailboxes.next_modify ..).symm) rfl fun id => by
      rw [ledger_append_nil]
  | close hopen =>
    exact h.of_client rfl rfl (Nat.le_refl _) rfl fun id => by rw [ledger_append_nil]
  | work hturn => exact h.turn hturn

end Enrolled

/-- **Rosters and log agree after every run.** -/
theorem Run.enrolled {s : Stream} {log : List Event} (h : Run s log) : Enrolled s log :=
  h.induct Enrolled.start fun _ ih hmove => ih.move hmove

end FlagFanout
