import FlagFanout.Proofs.Stream.Mail

/-!
# What a connection is sent

A connection that joins a channel is greeted with the state of the channel and then offered every
message that the channel produces while it is a member. `Run.delivered` says of every run that what
was placed in its mailbox is the greeting and then what the mailbox accepted of those offers, in
order and once each; that under `DeliveryPolicy.block` it accepts all of them as long as there is a
receiver, and under `DeliveryPolicy.dropNewest` all but those that met a full mailbox; and that the
mailbox is a queue, first in, first out, which never holds more than its capacity.

The configuration never settles a capacity of zero (`ConfigLayer.mailboxCapacity_pos`); with one,
not even the greeting would find room.
-/

namespace FlagFanout

/-- A configuration gives every mailbox room. -/
theorem ConfigLayer.mailboxCapacity_pos {l : ConfigLayer} {config : StreamConfig}
    (h : l.finalize = .ok config) : 0 < config.mailboxCapacity := by
  unfold finalize positive at h
  by_cases hzero : l.mailboxCapacity.getD StreamConfig.default.mailboxCapacity = 0
  · rw [if_pos hzero] at h
    cases h
  · rw [if_neg hzero] at h
    simp only [bind, Except.bind, pure, Except.pure] at h
    split at h
    · cases h
    · cases h
      exact Nat.pos_of_ne_zero hzero

/-! ## What a push still owes -/

namespace Worker

/-- What is being pushed and was not offered to a member yet. -/
def owed (w : Worker) (id : ConnectionId) : List Message :=
  match w.phase.push? with
  | some push => if id ∈ push.waiting then [push.message] else []
  | none => []

theorem owed_of_push?_eq_none {w : Worker} (h : w.phase.push? = none) (id : ConnectionId) :
    w.owed id = [] := by
  simp only [owed, h]

theorem owed_of_push? {w : Worker} {push : Push} (h : w.phase.push? = some push)
    (id : ConnectionId) : w.owed id = if id ∈ push.waiting then [push.message] else [] := by
  simp only [owed, h]

theorem length_owed_le (w : Worker) (id : ConnectionId) : (w.owed id).length ≤ 1 := by
  cases hpush : w.phase.push? with
  | none => rw [owed_of_push?_eq_none hpush]; exact Nat.zero_le _
  | some push => rw [owed_of_push? hpush]; split <;> simp

end Worker

/-! ## Offers -/

/-- A ledger with the same greeting and the same offers; the connection may have left its
channel. -/
structure Ledger.SameOffers (l l' : Ledger) : Prop where
  greeting_eq : l'.greeting = l.greeting
  offers_eq : l'.offers = l.offers
  place_eq : ∀ place, l'.place = some place → l.place = some place

/-- A ledger with the same messages. -/
structure Ledger.SameMail (l l' : Ledger) : Prop extends l.SameOffers l' where
  due_eq : l'.due = l.due

theorem Ledger.SameMail.of_eq {l l' : Ledger} (h : l' = l) : l.SameMail l' :=
  ⟨⟨by rw [h], by rw [h], fun _ hp => h ▸ hp⟩, by rw [h]⟩

theorem sameMail_closed (id : ConnectionId) (log : List Event) (id' : ConnectionId)
    (place : Place) (effects : List Effect) :
    (ledger id log).SameMail (ledger id (log ++ .closed id' place :: effects.map .effect)) := by
  rw [ledger_closed]
  split
  · exact ⟨⟨rfl, rfl, fun _ hp => nomatch hp⟩, rfl⟩
  · exact .of_eq rfl

theorem sameOffers_produced (id : ConnectionId) (log : List Event) (place : Place) (m : Message) :
    (ledger id log).SameOffers (ledger id (log ++ [.produced place m])) := by
  rw [ledger_produced]
  split <;> exact ⟨rfl, rfl, fun _ hp => hp⟩

/-- The offers to a connection, and what was placed in its mailbox, follow what its channel
produced. -/
structure Offered (s : Stream) (log : List Event) (id : ConnectionId) : Prop where
  due_eq : s.worker.phase ≠ .stopped →
    (ledger id log).due = (ledger id log).offers.map (·.1) ++ s.worker.owed id
  /-- A push that was cut off stays one message behind. -/
  exists_due_eq : ∃ owed : List Message,
    (ledger id log).due = (ledger id log).offers.map (·.1) ++ owed ∧ owed.length ≤ 1
  placed_eq : 0 < s.config.mailboxCapacity →
    placed id log = (ledger id log).greeting.toList ++
      ((ledger id log).offers.filter (·.2.accepts)).map (·.1)
  capacity_eq : ∀ o ∈ (ledger id log).offers, o.2.capacity = s.config.mailboxCapacity
  accepts_of_block : s.config.delivery = .block → ∀ o ∈ (ledger id log).offers,
    o.2.listening = true → o.2.accepts = true
  /-- A member was there whenever it was offered something. -/
  listening_of_place : ∀ place, (ledger id log).place = some place →
    ∀ o ∈ (ledger id log).offers, o.2.listening = true
  /-- Whoever is found gone is offered nothing more. -/
  listening_isPrefix :
    (ledger id log).offers.filter (·.2.listening) <+: (ledger id log).offers
  skipped_of_offer : ∀ o ∈ (ledger id log).offers, o.2.listening = true →
    o.2.accepts = true ∨ .effect (.skipped id o.1) ∈ log
  skipped_of_greeting : ∀ m, (ledger id log).greeting = some m →
    0 < s.config.mailboxCapacity ∨ .effect (.skipped id m) ∈ log

namespace Offered

variable {s s' : Stream} {log events : List Event} {id : ConnectionId}

theorem start (serial : Nat) (project engineName : String) (config : StreamConfig)
    (digest : List UInt8 → UInt64) (e : Engine) (id : ConnectionId) :
    Offered (Stream.start serial project engineName config digest e).1 [] id where
  due_eq _ := rfl
  exists_due_eq := ⟨[], rfl, Nat.zero_le _⟩
  placed_eq _ := rfl
  capacity_eq _ ho := nomatch ho
  accepts_of_block _ _ ho := nomatch ho
  listening_of_place _ hp := nomatch hp
  listening_isPrefix := List.prefix_refl _
  skipped_of_offer _ ho := nomatch ho
  skipped_of_greeting _ hm := nomatch hm

/-! ### A connection that is offered nothing -/

/-- Nothing is offered to the connection; its channel may have produced something. -/
theorem of_sameOffers (h : Offered s log id) (hconfig : s'.config = s.config)
    (hplaced : placed id events = [])
    (hoffers : (ledger id log).SameOffers (ledger id (log ++ events)))
    (hdue : s'.worker.phase ≠ .stopped →
      (ledger id (log ++ events)).due = (ledger id log).offers.map (·.1) ++ s'.worker.owed id)
    (hbehind : ∃ owed : List Message,
      (ledger id (log ++ events)).due = (ledger id log).offers.map (·.1) ++ owed ∧
        owed.length ≤ 1) :
    Offered s' (log ++ events) id where
  due_eq := hoffers.offers_eq ▸ hdue
  exists_due_eq := hoffers.offers_eq ▸ hbehind
  placed_eq hroom := by
    rw [placed_append, hplaced, hoffers.greeting_eq, hoffers.offers_eq, List.append_nil]
    exact h.placed_eq (hconfig ▸ hroom)
  capacity_eq := by
    rw [hoffers.offers_eq, hconfig]
    exact h.capacity_eq
  accepts_of_block hblock := by
    rw [hoffers.offers_eq]
    exact h.accepts_of_block (hconfig ▸ hblock)
  listening_of_place place hp := by
    rw [hoffers.offers_eq]
    exact h.listening_of_place place (hoffers.place_eq place hp)
  listening_isPrefix := by
    rw [hoffers.offers_eq]
    exact h.listening_isPrefix
  skipped_of_offer o ho hlistening := by
    rw [hoffers.offers_eq] at ho
    exact (h.skipped_of_offer o ho hlistening).imp_right (List.mem_append_left _)
  skipped_of_greeting m hm := by
    rw [hoffers.greeting_eq] at hm
    rw [hconfig]
    exact (h.skipped_of_greeting m hm).imp_right (List.mem_append_left _)

/-- The connection is sent nothing, and what it is owed stays the same. -/
theorem of_same (h : Offered s log id) (hconfig : s'.config = s.config)
    (howed : s'.worker.phase ≠ .stopped →
      s.worker.phase ≠ .stopped ∧ s'.worker.owed id = s.worker.owed id)
    (hplaced : placed id events = [])
    (hmail : (ledger id log).SameMail (ledger id (log ++ events))) :
    Offered s' (log ++ events) id := by
  refine h.of_sameOffers hconfig hplaced hmail.toSameOffers (fun hrunning => ?_) ?_
  · rw [hmail.due_eq, (howed hrunning).2]
    exact h.due_eq (howed hrunning).1
  · rw [hmail.due_eq]
    exact h.exists_due_eq

/-- Outside a push nothing is owed. -/
theorem of_effects (h : Offered s log id) (effects : List Effect) (hconfig : s'.config = s.config)
    (hrunning : s.worker.phase ≠ .stopped) (howed : s.worker.owed id = [])
    (howed' : s'.worker.owed id = []) (hplaced : placed id (effects.map .effect) = []) :
    Offered s' (log ++ effects.map .effect) id :=
  h.of_same hconfig (fun _ => ⟨hrunning, by rw [howed, howed']⟩) hplaced
    (.of_eq (ledger_append_effects ..))

/-! ### A connection that joins -/

/-- Nothing was placed yet in the mailbox of a connection that waits to be registered. -/
theorem mailbox_of_newcomer (h : Offered s log id) (henrolled : Enrolled s log)
    (hkept : Kept s log) (hroom : 0 < s.config.mailboxCapacity) (hid : id ∈ newcomers s.queue) :
    ∃ listening, s.mailboxes.get? id.number =
      some ⟨s.config.mailboxCapacity, [], listening⟩ := by
  obtain ⟨hstream, hnumber⟩ := henrolled.known id (.inl hid)
  obtain ⟨box, hbox⟩ := Mailboxes.exists_get?_of_lt hnumber
  have hmessages : box.messages = [] := by
    cases hlistening : box.listening with
    | false => exact hkept.messages_eq id.number box hbox hlistening
    | true =>
      have hplaced : placed id log = [] := by
        rw [h.placed_eq hroom, henrolled.blank_of_newcomer id hid]
        rfl
      have hqueue := hkept.placed_eq id.number box hbox hlistening
      rw [← hstream, hplaced] at hqueue
      exact (List.append_eq_nil_iff.1 hqueue.symm).2
  refine ⟨box.listening, ?_⟩
  rw [← hmessages, ← hkept.capacity_eq id.number box hbox, hbox]

/-- A newcomer that has a receiver has room for the greeting. -/
theorem attempt_newcomer (h : Offered s log id) (henrolled : Enrolled s log) (hkept : Kept s log)
    (hroom : 0 < s.config.mailboxCapacity) (hid : id ∈ newcomers s.queue)
    (hlistening : s.mailboxes.attempt s.config.delivery id.number ≠ .disconnected) :
    s.mailboxes.attempt s.config.delivery id.number = .sent := by
  obtain ⟨listening, hbox⟩ := h.mailbox_of_newcomer henrolled hkept hroom hid
  rw [Mailboxes.attempt_of_get? hbox, Mailbox.attempt_of_empty hroom] at hlistening ⊢
  cases listening with
  | false => exact absurd rfl hlistening
  | true => rfl

/-- A newcomer is placed what it is greeted with, and it is owed nothing. -/
theorem greeted (h : Offered s log id) (henrolled : Enrolled s log) (hkept : Kept s log)
    {place : Place} {m : Message} {effects : List Effect} (hid : id ∈ newcomers s.queue)
    (hconfig : s'.config = s.config) (howed : s'.worker.owed id = [])
    (hout : s.mailboxes.attempt s.config.delivery id.number = .sent ∨
      s.mailboxes.attempt s.config.delivery id.number = .dropped ∧ .skipped id m ∈ effects)
    (hplaced : placed id (effects.map .effect) =
      if s.mailboxes.attempt s.config.delivery id.number = .sent then [m] else []) :
    Offered s' (log ++ .joined id place m :: effects.map .effect) id := by
  have hledger : ledger id (log ++ .joined id place m :: effects.map .effect) =
      ⟨some place, some m, [], []⟩ := by
    rw [ledger_joined, if_pos rfl, henrolled.blank_of_newcomer id hid]
    rfl
  have hgreeting : 0 < s.config.mailboxCapacity ∨
      .effect (.skipped id m) ∈ log ++ .joined id place m :: effects.map .effect := by
    rcases hout with hsent | ⟨-, hskipped⟩
    · exact .inl (hkept.room_of_sent hsent)
    · exact .inr (List.mem_append_right _
        (List.mem_cons_of_mem _ (List.mem_map.2 ⟨_, hskipped, rfl⟩)))
  constructor <;> rw [hledger]
  case due_eq => exact fun _ => howed.symm
  case exists_due_eq => exact ⟨[], rfl, Nat.zero_le _⟩
  case placed_eq =>
    intro hroom
    rw [hconfig] at hroom
    have hlistening : s.mailboxes.attempt s.config.delivery id.number ≠ .disconnected := by
      rcases hout with hout | ⟨hout, -⟩ <;> simp [hout]
    rw [placed_append, placed_joined, hplaced, h.placed_eq hroom,
      henrolled.blank_of_newcomer id hid,
      if_pos (h.attempt_newcomer henrolled hkept hroom hid hlistening)]
    rfl
  case capacity_eq => exact fun _ ho => nomatch ho
  case accepts_of_block => exact fun _ _ ho => nomatch ho
  case listening_of_place => exact fun _ _ _ ho => nomatch ho
  case listening_isPrefix => exact List.prefix_refl _
  case skipped_of_offer => exact fun _ ho => nomatch ho
  case skipped_of_greeting =>
    intro m' hm
    cases hm
    rw [hconfig]
    exact hgreeting

theorem join (h : ∀ id', Offered s log id') (henrolled : Enrolled s log) (hkept : Kept s log)
    {id' : ConnectionId} {place : Place} {m : Message} {effects : List Effect}
    (hid : id ∈ newcomers s.queue) (hconfig : s'.config = s.config)
    (hphase : s.worker.phase = .idle) (hphase' : s'.worker.phase = .idle)
    (hout : s.mailboxes.attempt s.config.delivery id.number = .sent ∨
      s.mailboxes.attempt s.config.delivery id.number = .dropped ∧ .skipped id m ∈ effects)
    (hplaced : ∀ id', placed id' (effects.map .effect) =
      if id = id' ∧ s.mailboxes.attempt s.config.delivery id.number = .sent then [m] else []) :
    Offered s' (log ++ .joined id place m :: effects.map .effect) id' := by
  have howed : ∀ {w : Worker}, w.phase = .idle → w.owed id' = [] := fun hw =>
    Worker.owed_of_push?_eq_none (by rw [hw]; rfl) id'
  by_cases heq : id = id'
  · subst heq
    exact (h id).greeted henrolled hkept hid hconfig (howed hphase') hout (by simp [hplaced])
  · refine (h id').of_same hconfig
      (fun _ => ⟨by simp [hphase], by rw [howed hphase, howed hphase']⟩) ?_ (.of_eq ?_)
    · rw [placed_joined, hplaced, if_neg fun hc => heq hc.1]
    · rw [ledger_joined, if_neg heq]

/-! ### A push -/

theorem produce (h : Offered s log id) (henrolled : Enrolled s log) {pass : Pass} {place : Place}
    {c : Channel} {push : Push} {m : Message} (hconfig : s'.config = s.config)
    (hphase : s.worker.phase = .visiting pass)
    (hfind : s.worker.index.find? place.1 place.2 = some c)
    (hpush : s'.worker.phase.push? = some push) (hmessage : push.message = m)
    (hwaiting : push.waiting = c.members) :
    Offered s' (log ++ [.produced place m]) id := by
  have hrunning : s.worker.phase ≠ .stopped := by simp [hphase]
  have hidle : s.worker.phase.push? = none := by rw [hphase]; rfl
  have hmember : id ∈ push.waiting ↔ (ledger id log).place = some place := by
    rw [hwaiting, ← henrolled.mem_roster_iff hrunning, Worker.roster_of_push?_eq_none hidle,
      ChannelIndex.membersAt_of_find? hfind]
  have hdue : (ledger id (log ++ [.produced place m])).due =
      (ledger id log).offers.map (·.1) ++ s'.worker.owed id := by
    have hold := h.due_eq hrunning
    rw [Worker.owed_of_push?_eq_none hidle, List.append_nil] at hold
    rw [ledger_produced, Worker.owed_of_push? hpush]
    by_cases hplace : (ledger id log).place = some place
    · rw [if_pos hplace, if_pos (hmember.2 hplace), hmessage, ← hold]
    · rw [if_neg hplace, if_neg (mt hmember.1 hplace), List.append_nil, hold]
  exact h.of_sameOffers hconfig rfl (sameOffers_produced ..) (fun _ => hdue)
    ⟨_, hdue, Worker.length_owed_le ..⟩

/-- What a mailbox accepts of an offer is placed in it. -/
theorem placed_offered_eq (h : Offered s log id) (hroom : 0 < s.config.mailboxCapacity)
    {m : Message} {box : Mailbox} {effects : List Effect}
    (hplaced : placed id (effects.map .effect) = if box.accepts then [m] else []) :
    placed id (log ++ ([.offered id m box] ++ effects.map .effect)) =
      (ledger id log).greeting.toList ++
        (((ledger id log).offers ++ [(m, box)]).filter (·.2.accepts)).map (·.1) := by
  have hevents : placed id ([.offered id m box] ++ effects.map .effect) =
      placed id (effects.map .effect) := rfl
  rw [placed_append, hevents, hplaced, h.placed_eq hroom, List.filter_append, List.map_append,
    ← List.append_assoc]
  cases haccepts : box.accepts <;> simp [haccepts]

/-- A member is offered what it was owed. -/
theorem offer (h : Offered s log id) {place : Place} {m : Message} {box : Mailbox}
    {effects : List Effect} (hconfig : s'.config = s.config)
    (hrunning : s.worker.phase ≠ .stopped) (hplace : (ledger id log).place = some place)
    (howed : s.worker.owed id = [m]) (howed' : s'.worker.owed id = [])
    (hcapacity : box.capacity = s.config.mailboxCapacity)
    (hserved : box.attempt s.config.delivery ≠ .waiting)
    (hskipped : box.attempt s.config.delivery = .dropped → .skipped id m ∈ effects)
    (hplaced : placed id (effects.map .effect) = if box.accepts then [m] else []) :
    Offered s' (log ++ ([.offered id m box] ++ effects.map .effect)) id := by
  have hlistening := h.listening_of_place place hplace
  have hledger := ledger_offered id log id m box effects
  rw [if_pos rfl] at hledger
  have hdue : (ledger id log).due =
      ((ledger id log).offers ++ [(m, box)]).map (·.1) ++ s'.worker.owed id := by
    rw [h.due_eq hrunning, howed, howed', List.map_append, List.append_nil]
    rfl
  constructor <;> rw [hledger]
  case due_eq => exact fun _ => hdue
  case exists_due_eq => exact ⟨_, hdue, Worker.length_owed_le ..⟩
  case placed_eq => exact fun hroom => h.placed_offered_eq (hconfig ▸ hroom) hplaced
  case capacity_eq =>
    rw [hconfig]
    exact List.forall_mem_append.2 ⟨h.capacity_eq, List.forall_mem_singleton.2 hcapacity⟩
  case accepts_of_block =>
    intro hblock
    rw [hconfig] at hblock
    refine List.forall_mem_append.2 ⟨h.accepts_of_block hblock, List.forall_mem_singleton.2 ?_⟩
    exact Mailbox.accepts_of_block (hblock ▸ hserved)
  case listening_of_place =>
    intro place' hp
    refine List.forall_mem_append.2 ⟨hlistening, List.forall_mem_singleton.2 ?_⟩
    by_contra hgone
    rw [if_neg hgone] at hp
    cases hp
  case listening_isPrefix =>
    rw [List.filter_append, List.filter_eq_self.2 hlistening, List.prefix_append_right_inj]
    cases hthere : box.listening <;> simp [hthere]
  case skipped_of_offer =>
    refine List.forall_mem_append.2 ⟨fun o ho hthere => ?_, List.forall_mem_singleton.2 ?_⟩
    · exact (h.skipped_of_offer o ho hthere).imp_right (List.mem_append_left _)
    · intro hthere
      refine (Mailbox.accepts_or_dropped hserved hthere).imp_right fun hdropped => ?_
      exact List.mem_append_right _ (List.mem_append_right _
        (List.mem_map.2 ⟨_, hskipped hdropped, rfl⟩))
  case skipped_of_greeting =>
    intro m' hm
    rw [hconfig]
    exact (h.skipped_of_greeting m' hm).imp_right (List.mem_append_left _)

theorem serve (h : ∀ id', Offered s log id') (henrolled : Enrolled s log) (hkept : Kept s log)
    {id' : ConnectionId} {push push' : Push} {waiting : List ConnectionId} {box : Mailbox}
    {effects : List Effect} (hconfig : s'.config = s.config)
    (hpush : s.worker.phase.push? = some push) (hwaiting : push.waiting = id :: waiting)
    (hpush' : s'.worker.phase.push? = some push')
    (hmessage : push'.message = push.message) (hwaiting' : push'.waiting = waiting)
    (hbox : s.mailboxes.get? id.number = some box)
    (hserved : box.attempt s.config.delivery ≠ .waiting)
    (hskipped : box.attempt s.config.delivery = .dropped → .skipped id push.message ∈ effects)
    (hplaced : ∀ id', placed id' (effects.map .effect) =
      if id = id' ∧ box.attempt s.config.delivery = .sent then [push.message] else []) :
    Offered s' (log ++ ([.offered id push.message box] ++ effects.map .effect)) id' := by
  have hrunning : s.worker.phase ≠ .stopped := fun heq => by rw [heq] at hpush; cases hpush
  have hnodup : (id :: waiting).Nodup := by
    have hroster := henrolled.roster_nodup push.place
    rw [Worker.roster_of_push? hpush, if_pos rfl, hwaiting] at hroster
    exact (List.nodup_append'.1 hroster).2.1
  by_cases heq : id = id'
  · subst heq
    have hplace : (ledger id log).place = some push.place :=
      (henrolled.mem_roster_iff hrunning push.place id).1
        (Worker.mem_roster_of_waiting hpush hwaiting)
    refine (h id).offer hconfig hrunning hplace ?_ ?_ (hkept.capacity_eq id.number box hbox)
      hserved hskipped ?_
    · rw [Worker.owed_of_push? hpush, hwaiting, if_pos List.mem_cons_self]
    · rw [Worker.owed_of_push? hpush', hwaiting', if_neg (List.nodup_cons.1 hnodup).1]
    · simp only [hplaced, Mailbox.attempt_eq_sent_iff, true_and]
  · refine (h id').of_same hconfig (fun _ => ⟨hrunning, ?_⟩) ?_ (.of_eq ?_)
    · rw [Worker.owed_of_push? hpush, Worker.owed_of_push? hpush', hwaiting, hwaiting', hmessage]
      simp only [List.mem_cons, Ne.symm heq, false_or]
    · exact (hplaced id').trans (if_neg fun hc => heq hc.1)
    · rw [ledger_offered, if_neg heq]

/-! ### Every step -/

theorem turn (h : ∀ id, Offered s log id) (henrolled : Enrolled s log) (hkept : Kept s log)
    {e : Engine} {next : Stream.Step} (hturn : Stream.Turn e s next events) (id : ConnectionId) :
    Offered next.stream (log ++ events) id := by
  have hidle : ∀ {w : Worker}, w.phase.push? = none → w.owed id = [] := fun hw =>
    Worker.owed_of_push?_eq_none hw id
  cases hturn with
  | stop =>
    exact (h id).of_same rfl (fun hp => absurd rfl hp) rfl (.of_eq (ledger_append_nil ..))
  | refuse hphase =>
    have hpush : s.worker.phase.push? = none := by rw [hphase]; rfl
    exact (h id).of_effects [] rfl (by simp [hphase]) (hidle hpush) (hidle (by exact hpush)) rfl
  | @join id' selector discriminator context queue c out hphase hqueue hchannel hattempt hout =>
    refine join h henrolled hkept (by rw [hqueue]; exact List.mem_cons_self) rfl hphase
      (by exact hphase) ?_ fun id => ?_
    · rw [hattempt]
      refine hout.imp_right fun hout => ⟨hout, ?_⟩
      rw [hout]
      exact List.mem_cons_self
    · rw [hattempt, placed_greeting]
  | @ignore id' selector discriminator queue hphase =>
    exact (h id).of_same rfl (fun _ => ⟨by simp [hphase], rfl⟩) rfl
      (sameMail_closed id log id' (selector, discriminator) [])
  | @depart id' selector discriminator queue c hphase =>
    have hpush : s.worker.phase.push? = none := by rw [hphase]; rfl
    refine (h id).of_same rfl (fun _ => ⟨by simp [hphase], ?_⟩) rfl
      (sameMail_closed id log id' (selector, discriminator) [.metric (.closed selector)])
    rw [hidle hpush, hidle (by exact hpush)]
  | begin hphase =>
    have hpush : s.worker.phase.push? = none := by rw [hphase]; rfl
    exact (h id).of_effects [] rfl (by simp [hphase]) (hidle hpush) (hidle rfl) rfl
  | pass hphase =>
    have hpush : s.worker.phase.push? = none := by rw [hphase]; rfl
    exact (h id).of_effects [] rfl (by simp [hphase]) (hidle hpush) (hidle rfl) rfl
  | produce hphase htodo hfind hrefresh =>
    exact (h id).produce henrolled rfl hphase hfind rfl rfl rfl
  | endPass hphase =>
    have hpush : s.worker.phase.push? = none := by rw [hphase]; rfl
    refine (h id).of_effects _ rfl (by simp [hphase]) (hidle hpush)
      (hidle (by rw [Worker.endPass_phase]; rfl)) ?_
    rw [Worker.endPass_snd, placed_closings]
  | @serve pass push id' waiting out hphase hwaiting hattempt hout =>
    have hpush : s.worker.phase.push? = some push := by rw [hphase]; rfl
    obtain ⟨box, hbox⟩ := henrolled.exists_box hpush hwaiting
    have hbox' : box.attempt s.config.delivery = out :=
      Mailboxes.attempt_of_get? hbox _ ▸ hattempt
    rw [hbox, Option.map_some, Option.toList_some]
    refine serve h henrolled hkept rfl hpush hwaiting rfl rfl rfl hbox (hbox' ▸ hout)
      (fun hdropped => ?_) fun id => ?_
    · rw [← hbox', hdropped]
      exact List.mem_cons_self
    · rw [hbox', placed_trace]
  | @stall pass push id' waiting hphase =>
    have hpush : s.worker.phase.push? = some push := by rw [hphase]; rfl
    refine (h id).of_same rfl (fun _ => ⟨by simp [hphase], ?_⟩) rfl (.of_eq (ledger_append_nil ..))
    rw [Worker.owed_of_push? hpush]
    exact Worker.owed_of_push? rfl id
  | @resume pass push hphase =>
    have hpush : s.worker.phase.push? = some push := by rw [hphase]; rfl
    refine (h id).of_same rfl (fun _ => ⟨by simp [hphase], ?_⟩) rfl (.of_eq (ledger_append_nil ..))
    rw [Worker.owed_of_push? hpush]
    exact Worker.owed_of_push? rfl id
  | @endPush pass push hphase hwaiting =>
    have hpush : s.worker.phase.push? = some push := by rw [hphase]; rfl
    refine (h id).of_effects _ rfl (by simp [hphase]) ?_
      (hidle (by rw [Worker.endPush_phase]; rfl)) ?_
    · rw [Worker.owed_of_push? hpush, hwaiting, if_neg List.not_mem_nil]
    · rw [Worker.endPush_snd, placed_report]

theorem move (h : ∀ id, Offered s log id) (henrolled : Enrolled s log) (hkept : Kept s log)
    (hmove : Stream.Move s s' events) (id : ConnectionId) : Offered s' (log ++ events) id := by
  have hclient : ∀ {s' : Stream} {events : List Event}, s'.config = s.config →
      s'.worker = s.worker → placed id events = [] →
      ledger id (log ++ events) = ledger id log → Offered s' (log ++ events) id :=
    fun hconfig hworker hplaced hledger =>
      (h id).of_same hconfig (fun hp => ⟨hworker ▸ hp, by rw [hworker]⟩) hplaced (.of_eq hledger)
  cases hmove with
  | still => exact hclient rfl rfl rfl (by rw [ledger_append_nil])
  | connect hopen hroom hid => exact hclient rfl rfl rfl (by rw [ledger_opened])
  | connectClosed hclosed hid => exact hclient rfl rfl rfl (by rw [ledger_opened])
  | disconnect c hopen hroom => exact hclient rfl rfl rfl (by rw [ledger_append_nil])
  | take hbox hmessages => exact hclient rfl rfl rfl (by rw [ledger_taken])
  | leave number => exact hclient rfl rfl rfl (by rw [ledger_append_nil])
  | close hopen => exact hclient rfl rfl rfl (by rw [ledger_append_nil])
  | work hturn => exact turn h henrolled hkept hturn id

end Offered

theorem Run.offered {s : Stream} {log : List Event} (h : Run s log) (id : ConnectionId) :
    Offered s log id :=
  h.induct (P := fun s log => ∀ id, Offered s log id) Offered.start
    (fun hrun ih hmove => Offered.move ih hrun.enrolled hrun.kept hmove) id

/-! ## Messages skipped -/

/-- Nothing was skipped, by the figures of the worker and by its tallies. -/
structure Unskipped (w : Worker) : Prop where
  counters_eq : w.counters.dropped = 0
  total_eq : ∀ pass, w.phase.pass? = some pass → pass.total.dropped = 0
  tally_eq : ∀ push, w.phase.push? = some push → push.tally.dropped = 0

namespace Unskipped

variable {w : Worker}

theorem endPush (h : Unskipped w) {pass : Pass} {push : Push}
    (hphase : w.phase = .pushing pass push) : Unskipped (w.endPush pass push).1 where
  counters_eq := h.counters_eq
  total_eq pass' hp := by
    rw [Worker.endPush_phase] at hp
    cases hp
    have htotal := h.total_eq pass (by rw [hphase]; rfl)
    have htally := h.tally_eq push (by rw [hphase]; rfl)
    change pass.total.dropped + push.tally.dropped = 0
    rw [htotal, htally]
  tally_eq push' hp := by
    rw [Worker.endPush_phase] at hp
    cases hp

theorem endPass (h : Unskipped w) {pass : Pass} (hphase : w.phase = .visiting pass) :
    Unskipped (w.endPass pass).1 where
  counters_eq := by
    have htotal := h.total_eq pass (by rw [hphase]; rfl)
    rw [(Worker.isPruned_endPass w pass).dropped_eq]
    change w.counters.dropped + pass.total.dropped = 0
    rw [h.counters_eq, htotal]
  total_eq pass' hp := by
    rw [Worker.endPass_phase] at hp
    cases hp
  tally_eq push' hp := by
    rw [Worker.endPass_phase] at hp
    cases hp

theorem turn {s : Stream} (h : Unskipped s.worker) (hblock : s.config.delivery = .block)
    {e : Engine} {next : Stream.Step} {events : List Event}
    (hturn : Stream.Turn e s next events) : Unskipped next.stream.worker := by
  have hout : ∀ {n out}, s.mailboxes.attempt s.config.delivery n = out → out.tally.dropped = 0 := by
      intro n out hattempt
      rw [hblock] at hattempt
      have hne := s.mailboxes.attempt_block_ne_dropped n
      rw [hattempt] at hne
      cases out <;> first | rfl | exact absurd rfl hne
  cases hturn with
  | stop => exact ⟨h.counters_eq, fun _ hp => (nomatch hp), fun _ hp => nomatch hp⟩
  | refuse | ignore | depart => exact ⟨h.counters_eq, h.total_eq, h.tally_eq⟩
  | @join id selector discriminator context queue c out hphase hqueue hchannel hattempt =>
    refine ⟨?_, h.total_eq, h.tally_eq⟩
    change s.worker.counters.dropped + out.tally.dropped = 0
    rw [h.counters_eq, hout hattempt]
  | begin =>
    refine ⟨h.counters_eq, fun pass hp => ?_, fun push hp => nomatch hp⟩
    cases hp
    rfl
  | @pass pass place todo hphase =>
    refine ⟨h.counters_eq, fun pass' hp => ?_, fun push hp => nomatch hp⟩
    cases hp
    exact h.total_eq pass (by rw [hphase]; rfl)
  | @produce pass place todo c last m hphase =>
    refine ⟨h.counters_eq, fun pass' hp => ?_, fun push hp => ?_⟩
    · cases hp
      exact h.total_eq pass (by rw [hphase]; rfl)
    · cases hp
      rfl
  | endPass hphase => exact h.endPass hphase
  | @serve pass push id waiting out hphase hwaiting hattempt =>
    refine ⟨h.counters_eq, fun pass' hp => ?_, fun push' hp => ?_⟩
    · cases hp
      exact h.total_eq pass (by rw [hphase]; rfl)
    · cases hp
      change push.tally.dropped + out.tally.dropped = 0
      rw [h.tally_eq push (by rw [hphase]; rfl), hout hattempt]
  | @stall pass push id waiting hphase =>
    refine ⟨h.counters_eq, fun pass' hp => ?_, fun push' hp => ?_⟩
    · cases hp
      exact h.total_eq pass (by rw [hphase]; rfl)
    · cases hp
      exact h.tally_eq push (by rw [hphase]; rfl)
  | @resume pass push hphase =>
    refine ⟨h.counters_eq, fun pass' hp => ?_, fun push' hp => ?_⟩
    · cases hp
      exact h.total_eq pass (by rw [hphase]; rfl)
    · cases hp
      exact h.tally_eq push (by rw [hphase]; rfl)
  | endPush hphase => exact h.endPush hphase

end Unskipped

end FlagFanout
