import FlagFanout.Proofs.Stream.Roster

/-!
# What mailboxes hold

A mailbox is a queue, first in, first out: as long as there is a receiver it holds what was placed
in it and not taken yet, and it never holds more than its capacity. When the receiver is dropped,
what still waits is lost. `Run.kept` says so of every run.
-/

namespace FlagFanout

/-! ## What a step of the worker places -/

namespace Stream.Turn

variable {e : Engine} {s : Stream} {next : Step} {events : List Event}

theorem taken_eq (hturn : Turn e s next events) (id : ConnectionId) : taken id events = [] := by
  cases hturn with
  | join => exact taken_effects ..
  | serve => rw [taken_append, taken_effects]; cases Mailboxes.get? _ _ <;> rfl
  | endPass => exact taken_effects ..
  | endPush => exact taken_effects ..
  | stop | refuse | ignore | depart | begin | pass | produce | stall | resume => rfl

/-- A step of the worker leaves the mailboxes alone, or offers one message to one connection, which
waits to be registered or is a member. -/
theorem delivery_cases (hturn : Turn e s next events) :
    (next.stream.mailboxes = s.mailboxes ∧ ∀ id, placed id events = []) ∨
    ∃ id m, next.stream.mailboxes = s.mailboxes.offer s.config.delivery id.number m ∧
      (∀ id', placed id' events =
        if id = id' ∧ s.mailboxes.attempt s.config.delivery id.number = .sent then [m] else []) ∧
      (id ∈ newcomers s.queue ∨
        s.worker.phase ≠ .stopped ∧ ∃ place, id ∈ s.worker.roster place) := by
  cases hturn with
  | @join id selector discriminator context queue c out hphase hqueue hchannel hattempt hout =>
    refine .inr ⟨id, c.last.message, rfl, fun id' => ?_, .inl ?_⟩
    · rw [hattempt, placed_joined, placed_greeting]
    · rw [hqueue]
      exact List.mem_cons_self
  | @serve pass push id waiting out hphase hwaiting hattempt hout =>
    refine .inr ⟨id, push.message, rfl, fun id' => ?_, .inr ⟨by simp [hphase], push.place, ?_⟩⟩
    · rw [hattempt, placed_offered, placed_trace]
    · exact Worker.mem_roster_of_waiting (by rw [hphase]; rfl) hwaiting
  | endPass => exact .inl ⟨rfl, fun id => by rw [Worker.endPass_snd, placed_closings]⟩
  | endPush => exact .inl ⟨rfl, fun id => by rw [Worker.endPush_snd, placed_report]⟩
  | stop | refuse | ignore | depart | begin | pass | produce | stall | resume =>
    exact .inl ⟨rfl, fun id => rfl⟩

end Stream.Turn

/-! ## Mailboxes and the log -/

/-- The mailboxes of a stream hold what was placed in them and not taken yet. -/
structure Kept (s : Stream) (log : List Event) : Prop where
  capacity_eq : ∀ n box, s.mailboxes.get? n = some box → box.capacity = s.config.mailboxCapacity
  length_le : ∀ n box, s.mailboxes.get? n = some box → box.messages.length ≤ box.capacity
  placed_eq : ∀ n box, s.mailboxes.get? n = some box → box.listening = true →
    placed ⟨s.serial, n⟩ log = taken ⟨s.serial, n⟩ log ++ box.messages
  /-- What waits for a receiver is lost when that is dropped. -/
  messages_eq : ∀ n box, s.mailboxes.get? n = some box → box.listening = false → box.messages = []
  taken_isPrefix : ∀ id, taken id log <+: placed id log
  placed_eq_nil : ∀ id, s.mailboxes.next ≤ id.number → placed id log = []

namespace Kept

variable {s s' : Stream} {log events : List Event}

/-- A message is only accepted where mailboxes have room. -/
theorem room_of_sent (h : Kept s log) {policy : DeliveryPolicy} {n : Nat}
    (hsent : s.mailboxes.attempt policy n = .sent) : 0 < s.config.mailboxCapacity := by
  cases hbox : s.mailboxes.get? n with
  | none => simp [Mailboxes.attempt, hbox] at hsent
  | some box =>
    rw [Mailboxes.attempt_of_get? hbox, Mailbox.attempt_eq_sent_iff, Mailbox.accepts_iff] at hsent
    rw [← h.capacity_eq n box hbox]
    exact Nat.zero_lt_of_lt hsent.2

/-- Nothing is placed and nothing is taken. -/
theorem of_same (h : Kept s log) (hserial : s'.serial = s.serial) (hconfig : s'.config = s.config)
    (hmailboxes : s'.mailboxes = s.mailboxes) (hplaced : ∀ id, placed id events = [])
    (htaken : ∀ id, taken id events = []) : Kept s' (log ++ events) where
  capacity_eq := hconfig ▸ hmailboxes ▸ h.capacity_eq
  length_le := hmailboxes ▸ h.length_le
  placed_eq n box hbox hlistening := by
    rw [placed_append, taken_append, hplaced, htaken, List.append_nil, List.append_nil, hserial]
    exact h.placed_eq n box (hmailboxes ▸ hbox) hlistening
  messages_eq := hmailboxes ▸ h.messages_eq
  taken_isPrefix id := by
    rw [placed_append, taken_append, hplaced, htaken, List.append_nil, List.append_nil]
    exact h.taken_isPrefix id
  placed_eq_nil id hid := by
    rw [placed_append, hplaced, List.append_nil]
    exact h.placed_eq_nil id (hmailboxes ▸ hid)

/-- A new mailbox is empty, and nothing was placed in it. -/
theorem add (h : Kept s log) (hserial : s'.serial = s.serial) (hconfig : s'.config = s.config)
    (hmailboxes : s'.mailboxes = s.mailboxes.add s.config.mailboxCapacity)
    (hplaced : ∀ id, placed id events = []) (htaken : ∀ id, taken id events = []) :
    Kept s' (log ++ events) := by
  have hbox : ∀ {n box}, s'.mailboxes.get? n = some box →
      n = s.mailboxes.next ∧ box = .ofCapacity s.config.mailboxCapacity ∨
        s.mailboxes.get? n = some box := by
    intro n box hbox
    rw [hmailboxes, Mailboxes.get?_add] at hbox
    split at hbox
    · next hn => exact .inl ⟨hn, (Option.some.inj hbox).symm⟩
    · exact .inr hbox
  have hold : ∀ id, placed id (log ++ events) = placed id log ∧
      taken id (log ++ events) = taken id log := fun id => by simp [hplaced, htaken]
  refine
    { capacity_eq := fun n box hb => ?_
      length_le := fun n box hb => ?_
      placed_eq := fun n box hb hlistening => ?_
      messages_eq := fun n box hb hgone => ?_
      taken_isPrefix := fun id => by rw [(hold id).1, (hold id).2]; exact h.taken_isPrefix id
      placed_eq_nil := fun id hid => ?_ }
  · rw [hconfig]
    rcases hbox hb with ⟨-, rfl⟩ | hb
    · rfl
    · exact h.capacity_eq n box hb
  · rcases hbox hb with ⟨-, rfl⟩ | hb
    · exact Nat.zero_le _
    · exact h.length_le n box hb
  · rw [(hold _).1, (hold _).2, hserial]
    rcases hbox hb with ⟨hn, rfl⟩ | hb
    · have hnil := h.placed_eq_nil ⟨s.serial, n⟩ (Nat.le_of_eq hn.symm)
      have htaken' := h.taken_isPrefix ⟨s.serial, n⟩
      rw [hnil, List.prefix_nil] at htaken'
      rw [hnil, htaken']
      rfl
    · exact h.placed_eq n box hb hlistening
  · rcases hbox hb with ⟨-, rfl⟩ | hb
    · rfl
    · exact h.messages_eq n box hb hgone
  · rw [hmailboxes, Mailboxes.next_add] at hid
    rw [(hold id).1]
    exact h.placed_eq_nil id (Nat.le_of_succ_le hid)

/-- A message is offered to a connection of the stream. -/
theorem offer (h : Kept s log) {id : ConnectionId} {m : Message} {policy : DeliveryPolicy}
    (hknown : id.stream = s.serial ∧ id.number < s.mailboxes.next)
    (hserial : s'.serial = s.serial) (hconfig : s'.config = s.config)
    (hmailboxes : s'.mailboxes = s.mailboxes.offer policy id.number m)
    (hplaced : ∀ id', placed id' events =
      if id = id' ∧ s.mailboxes.attempt policy id.number = .sent then [m] else [])
    (htaken : ∀ id, taken id events = []) : Kept s' (log ++ events) := by
  by_cases hsent : s.mailboxes.attempt policy id.number = .sent
  · obtain ⟨old, hold⟩ := Mailboxes.exists_get?_of_lt hknown.2
    have hattempt : old.attempt policy = .sent := Mailboxes.attempt_of_get? hold policy ▸ hsent
    obtain ⟨hlistening, hroom⟩ :=
      Mailbox.accepts_iff.1 (Mailbox.attempt_eq_sent_iff.1 hattempt)
    have hbox : ∀ {n box}, s'.mailboxes.get? n = some box →
        n = id.number ∧ box = old.push m ∨ n ≠ id.number ∧ s.mailboxes.get? n = some box := by
        intro n box hb
        rw [hmailboxes, Mailboxes.offer, Mailboxes.get?_modify] at hb
        split at hb
        · next hn =>
          rw [hn, hold, Option.map_some, Mailbox.offer_of_sent hattempt] at hb
          exact .inl ⟨hn, (Option.some.inj hb).symm⟩
        · next hn => exact .inr ⟨hn, hb⟩
    have hnew : ∀ id', placed id' (log ++ events) =
        if id = id' then placed id' log ++ [m] else placed id' log := by
      intro id'
      rw [placed_append, hplaced]
      by_cases heq : id = id'
      · rw [if_pos ⟨heq, hsent⟩, if_pos heq]
      · rw [if_neg fun hc => heq hc.1, if_neg heq, List.append_nil]
    have hsame : ∀ id', taken id' (log ++ events) = taken id' log := fun id' => by simp [htaken]
    refine
      { capacity_eq := fun n box hb => ?_
        length_le := fun n box hb => ?_
        placed_eq := fun n box hb hbl => ?_
        messages_eq := fun n box hb hgone => ?_
        taken_isPrefix := fun id' => ?_
        placed_eq_nil := fun id' hid' => ?_ }
    · rw [hconfig]
      rcases hbox hb with ⟨-, rfl⟩ | ⟨-, hb⟩
      · exact h.capacity_eq id.number old hold
      · exact h.capacity_eq n box hb
    · rcases hbox hb with ⟨-, rfl⟩ | ⟨-, hb⟩
      · rw [Mailbox.push, List.length_append, List.length_singleton]
        exact hroom
      · exact h.length_le n box hb
    · rw [hserial, hnew, hsame]
      rcases hbox hb with ⟨rfl, rfl⟩ | ⟨hn, hb⟩
      · rw [← hknown.1, if_pos rfl, Mailbox.push, ← List.append_assoc]
        have hplaced' := h.placed_eq id.number old hold hlistening
        rw [← hknown.1] at hplaced'
        exact congrArg (· ++ [m]) hplaced'
      · rw [if_neg fun heq => hn (congrArg ConnectionId.number heq).symm]
        exact h.placed_eq n box hb hbl
    · rcases hbox hb with ⟨-, rfl⟩ | ⟨-, hb⟩
      · exact absurd (hlistening.symm.trans hgone) (by simp)
      · exact h.messages_eq n box hb hgone
    · rw [hnew, hsame]
      split
      · exact (h.taken_isPrefix id').trans (List.prefix_append ..)
      · exact h.taken_isPrefix id'
    · rw [hmailboxes, Mailboxes.next_offer] at hid'
      rw [hnew, if_neg fun heq => ?_]
      · exact h.placed_eq_nil id' hid'
      · rw [← heq] at hid'
        exact Nat.not_lt_of_le hid' hknown.2
  · refine h.of_same hserial hconfig ?_ (fun id' => ?_) htaken
    · rw [hmailboxes, Mailboxes.offer_of_ne_sent hsent]
    · rw [hplaced, if_neg fun hc => hsent hc.2]

/-- A connection takes the first message out of its mailbox. -/
theorem take (h : Kept s log) {number : Nat} {old : Mailbox} {m : Message} {rest : List Message}
    (hold : s.mailboxes.get? number = some old) (hmessages : old.messages = m :: rest) :
    Kept
      { s with mailboxes := s.mailboxes.modify number fun b => { b with messages := rest } }
      (log ++ [.taken ⟨s.serial, number⟩ m]) := by
  have hlistening : old.listening = true := by
    by_contra hgone
    have hnil := h.messages_eq number old hold (by simpa using hgone)
    rw [hmessages] at hnil
    cases hnil
  have hqueue := h.placed_eq number old hold hlistening
  have hbox : ∀ {n box},
      (s.mailboxes.modify number fun b => { b with messages := rest }).get? n = some box →
        n = number ∧ box = { old with messages := rest } ∨
          n ≠ number ∧ s.mailboxes.get? n = some box := by
    intro n box hb
    rw [Mailboxes.get?_modify] at hb
    split at hb
    · next hn =>
      rw [hn, hold] at hb
      exact .inl ⟨hn, (Option.some.inj hb).symm⟩
    · next hn => exact .inr ⟨hn, hb⟩
  have hsame : ∀ id, placed id (log ++ [.taken ⟨s.serial, number⟩ m]) = placed id log :=
    fun id => (placed_append ..).trans (List.append_nil _)
  have hnew : ∀ id, taken id (log ++ [.taken ⟨s.serial, number⟩ m]) =
      if ⟨s.serial, number⟩ = id then taken id log ++ [m] else taken id log := by
    intro id
    rw [taken_append]
    by_cases heq : ⟨s.serial, number⟩ = id <;> simp [taken, heq]
  refine
    { capacity_eq := fun n box hb => ?_
      length_le := fun n box hb => ?_
      placed_eq := fun n box hb hbl => ?_
      messages_eq := fun n box hb hgone => ?_
      taken_isPrefix := fun id => ?_
      placed_eq_nil := fun id hid => ?_ }
  · rcases hbox hb with ⟨-, rfl⟩ | ⟨-, hb⟩
    · exact h.capacity_eq number old hold
    · exact h.capacity_eq n box hb
  · rcases hbox hb with ⟨-, rfl⟩ | ⟨-, hb⟩
    · have hlength := h.length_le number old hold
      rw [hmessages] at hlength
      exact Nat.le_of_succ_le hlength
    · exact h.length_le n box hb
  · rw [hsame, hnew]
    rcases hbox hb with ⟨rfl, rfl⟩ | ⟨hn, hb⟩
    · rw [if_pos rfl, List.append_assoc, hqueue, hmessages]
      rfl
    · rw [if_neg fun heq => hn (congrArg ConnectionId.number heq).symm]
      exact h.placed_eq n box hb hbl
  · rcases hbox hb with ⟨-, rfl⟩ | ⟨-, hb⟩
    · exact absurd (hlistening.symm.trans hgone) (by simp)
    · exact h.messages_eq n box hb hgone
  · rw [hsame, hnew]
    split
    · next heq =>
      rw [← heq, hqueue, hmessages]
      exact (List.prefix_append_right_inj _).2 ⟨rest, rfl⟩
    · exact h.taken_isPrefix id
  · rw [hsame]
    rw [Mailboxes.next_modify] at hid
    exact h.placed_eq_nil id hid

/-- A receiver is dropped, and what waits for it is lost. -/
theorem leave (h : Kept s log) (number : Nat) :
    Kept
      { s with
        mailboxes := s.mailboxes.modify number fun b =>
          { b with listening := false, messages := [] } } (log ++ []) := by
  rw [List.append_nil]
  have hbox : ∀ {n box},
      (s.mailboxes.modify number fun b => { b with listening := false, messages := [] }).get? n =
        some box →
      (∃ old, s.mailboxes.get? n = some old ∧ box = ⟨old.capacity, [], false⟩) ∨
        s.mailboxes.get? n = some box := by
    intro n box hb
    rw [Mailboxes.get?_modify] at hb
    split at hb
    · obtain ⟨old, hold, rfl⟩ := Option.map_eq_some_iff.1 hb
      exact .inl ⟨old, hold, rfl⟩
    · exact .inr hb
  refine
    { capacity_eq := fun n box hb => ?_
      length_le := fun n box hb => ?_
      placed_eq := fun n box hb hlistening => ?_
      messages_eq := fun n box hb hgone => ?_
      taken_isPrefix := h.taken_isPrefix
      placed_eq_nil := fun id hid => h.placed_eq_nil id (Mailboxes.next_modify .. ▸ hid) }
  · rcases hbox hb with ⟨old, hold, rfl⟩ | hb
    · exact h.capacity_eq n old hold
    · exact h.capacity_eq n box hb
  · rcases hbox hb with ⟨old, hold, rfl⟩ | hb
    · exact Nat.zero_le _
    · exact h.length_le n box hb
  · rcases hbox hb with ⟨old, hold, rfl⟩ | hb
    · cases hlistening
    · exact h.placed_eq n box hb hlistening
  · rcases hbox hb with ⟨old, hold, rfl⟩ | hb
    · rfl
    · exact h.messages_eq n box hb hgone

theorem move (h : Kept s log) (henrolled : Enrolled s log) (hmove : Stream.Move s s' events) :
    Kept s' (log ++ events) := by
  cases hmove with
  | still => exact h.of_same rfl rfl rfl (fun _ => rfl) fun _ => rfl
  | connect hopen hroom hid => exact h.add rfl rfl rfl (fun _ => rfl) fun _ => rfl
  | connectClosed hclosed hid => exact h.add rfl rfl rfl (fun _ => rfl) fun _ => rfl
  | disconnect c hopen hroom => exact h.of_same rfl rfl rfl (fun _ => rfl) fun _ => rfl
  | take hbox hmessages => exact h.take hbox hmessages
  | leave number => exact h.leave number
  | close hopen => exact h.of_same rfl rfl rfl (fun _ => rfl) fun _ => rfl
  | work hturn =>
    rcases hturn.delivery_cases with ⟨hmailboxes, hplaced⟩ | ⟨id, m, hmailboxes, hplaced, hid⟩
    · exact h.of_same hturn.serial_eq hturn.config_eq hmailboxes hplaced hturn.taken_eq
    · have hknown : id.stream = s.serial ∧ id.number < s.mailboxes.next := by
        rcases hid with hid | ⟨hrunning, place, hid⟩
        · exact henrolled.known id (.inl hid)
        · exact henrolled.known_of_mem hrunning hid
      exact h.offer hknown hturn.serial_eq hturn.config_eq hmailboxes hplaced hturn.taken_eq

end Kept

/-- **Mailboxes are queues of limited room**, after every run. -/
theorem Run.kept {s : Stream} {log : List Event} (h : Run s log) : Kept s log :=
  h.induct
    (fun _ _ _ _ _ _ =>
      { capacity_eq := fun _ _ hb => nomatch hb
        length_le := fun _ _ hb => nomatch hb
        placed_eq := fun _ _ hb => nomatch hb
        messages_eq := fun _ _ hb => nomatch hb
        taken_isPrefix := fun _ => List.prefix_refl _
        placed_eq_nil := fun _ _ => rfl })
    fun hrun ih hmove => ih.move hrun.enrolled hmove

end FlagFanout
