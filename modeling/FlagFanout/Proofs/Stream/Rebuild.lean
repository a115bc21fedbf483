import FlagFanout.Proofs.Stream.Accounting
import FlagFanout.Proofs.Stream.Delivery
import FlagFanout.Proofs.Stream.Mail
import FlagFanout.Proofs.Stream.Refresh

/-!
# What a client can rebuild

A client that lays every message of its mailbox on the first one keeps the state of its channel.
`Run.rebuilds` says that as long as no message was skipped, what a member was sent rebuilds exactly
what its channel last delivered, whenever the worker is not in the middle of a push, and that every
message after the first says something new, and nothing else (`AllRenew`).

Nothing is assumed about the engine: the worker meets another one with every step, so keys may fail,
disappear and come back in any way.
-/

namespace FlagFanout

/-! ## Laying messages -/

/-- Every message says something new of what those before it make of a state. -/
def AllRenew : Message → List Message → Prop
  | _, [] => True
  | m, n :: rest => n.Renews m ∧ AllRenew (m.lay n) rest

theorem allRenew_append {m : Message} {l l' : List Message} :
    AllRenew m (l ++ l') ↔ AllRenew m l ∧ AllRenew (l.foldl .lay m) l' := by
  induction l generalizing m with
  | nil => simp [AllRenew]
  | cons n rest ih => simp [AllRenew, ih, and_assoc]

theorem AllRenew.of_isPrefix {m : Message} {l l' : List Message} (h : AllRenew m l')
    (hle : l <+: l') : AllRenew m l := by
  obtain ⟨rest, rfl⟩ := hle
  exact (allRenew_append.1 h).1

/-! ## Channels and what they produced -/

/-- What a channel last delivered is what its members were greeted with, with everything laid on it
that the channel produced since. -/
structure Remembered (s : Stream) (log : List Event) : Prop where
  message_eq : s.worker.phase ≠ .stopped → ∀ id (place : Place) c,
    (ledger id log).place = some place → s.worker.index.find? place.1 place.2 = some c →
      ∃ m, (ledger id log).greeting = some m ∧ (ledger id log).due.foldl .lay m = c.last.message
  allRenew : ∀ id m, (ledger id log).greeting = some m → AllRenew m (ledger id log).due

namespace Remembered

variable {s s' : Stream} {log events : List Event}

/-- Nobody joins, nothing is produced, and the channels keep what they hold. -/
theorem of_keeps (h : Remembered s log)
    (hgreeting : ∀ id, (ledger id (log ++ events)).greeting = (ledger id log).greeting)
    (hdue : ∀ id, (ledger id (log ++ events)).due = (ledger id log).due)
    (hplace : ∀ id place, (ledger id (log ++ events)).place = some place →
      (ledger id log).place = some place)
    (hkeeps : s'.worker.phase ≠ .stopped →
      s.worker.phase ≠ .stopped ∧ s.worker.index.Keeps s'.worker.index) :
    Remembered s' (log ++ events) where
  message_eq hrunning id place c' hp hc' := by
    obtain ⟨hrunning', hfind⟩ := hkeeps hrunning
    obtain ⟨c, hc, hlast, -⟩ := hfind place c' hc'
    rw [hgreeting, hdue, hlast]
    exact h.message_eq hrunning' id place c (hplace id place hp) hc
  allRenew id m hm := by
    rw [hdue]
    exact h.allRenew id m (hgreeting id ▸ hm)

/-- Nothing is told of connections, and the channels keep what they hold. -/
theorem of_effects (h : Remembered s log) (effects : List Effect)
    (hrunning : s.worker.phase ≠ .stopped) (hkeeps : s.worker.index.Keeps s'.worker.index) :
    Remembered s' (log ++ effects.map .effect) := by
  refine h.of_keeps (fun id => by rw [ledger_append_effects])
    (fun id => by rw [ledger_append_effects]) (fun id place hp => ?_) fun _ => ⟨hrunning, hkeeps⟩
  rwa [ledger_append_effects] at hp

theorem join (h : Remembered s log) (henrolled : Enrolled s log) {id : ConnectionId} {place : Place}
    {context : Option Context} {c : Channel} {ev : Evaluator} {effects : List Effect}
    (hid : id ∈ newcomers s.queue) (hphase : s.worker.phase = .idle)
    (hchannel : s.worker.channelFor ev place.1 place.2 context = c)
    (hindex : s'.worker.index = s.worker.index.put place.1 place.2 (c.join id)) :
    Remembered s' (log ++ .joined id place c.last.message :: effects.map .effect) where
  message_eq _ id' place' c' hp hc' := by
    have hrunning : s.worker.phase ≠ .stopped := by simp [hphase]
    rw [hindex] at hc'
    rw [ledger_joined] at hp ⊢
    by_cases heq : id = id'
    · subst heq
      rw [if_pos rfl] at hp ⊢
      cases hp
      rw [ChannelIndex.find?_put_self] at hc'
      cases hc'
      rw [henrolled.blank_of_newcomer id hid]
      exact ⟨_, rfl, rfl⟩
    · rw [if_neg heq] at hp ⊢
      -- there was a channel where others are, so none was made
      obtain ⟨c₀, hc₀⟩ := henrolled.exists_channel hrunning hp
      rw [ChannelIndex.find?_put] at hc'
      split at hc'
      · next hplace =>
        cases hc'
        subst hplace
        rw [Worker.channelFor_of_find? hc₀] at hchannel
        exact hchannel ▸ h.message_eq hrunning id' place' c₀ hp hc₀
      · exact h.message_eq hrunning id' place' c' hp hc'
  allRenew id' m hm := by
    rw [ledger_joined] at hm ⊢
    by_cases heq : id = id'
    · subst heq
      rw [if_pos rfl, henrolled.blank_of_newcomer id hid]
      trivial
    · rw [if_neg heq] at hm ⊢
      exact h.allRenew id' m hm

theorem produce (h : Remembered s log) {place : Place} {c : Channel} {last : Snapshot}
    {m : Message} (hrunning : s.worker.phase ≠ .stopped)
    (hfind : s.worker.index.find? place.1 place.2 = some c)
    (hindex : s'.worker.index = s.worker.index.put place.1 place.2 { c with last })
    (hnew : last.message = c.last.message.lay m) (hrenews : m.Renews c.last.message) :
    Remembered s' (log ++ [.produced place m]) := by
  have hgreeting : ∀ id, (ledger id (log ++ [.produced place m])).greeting =
      (ledger id log).greeting := by
    intro id
    rw [ledger_produced]
    split <;> rfl
  have hplace : ∀ id, (ledger id (log ++ [.produced place m])).place =
      (ledger id log).place := by
    intro id
    rw [ledger_produced]
    split <;> rfl
  refine
    { message_eq := fun _ id place' c' hp hc' => ?_
      allRenew := fun id greeting hm => ?_ }
  · rw [hindex, ChannelIndex.find?_put] at hc'
    rw [hplace] at hp
    rw [hgreeting, ledger_produced]
    by_cases heq : place' = place
    · rw [if_pos heq] at hc'
      cases hc'
      rw [heq] at hp
      obtain ⟨greeting, hgreeted, hold⟩ := h.message_eq hrunning id place c hp hfind
      refine ⟨greeting, hgreeted, ?_⟩
      rw [if_pos hp, hnew, ← hold]
      exact List.foldl_append
    · rw [if_neg heq] at hc'
      rw [if_neg (by rw [hp]; simpa using heq)]
      exact h.message_eq hrunning id place' c' hp hc'
  · rw [hgreeting] at hm
    rw [ledger_produced]
    split
    · next hp =>
      obtain ⟨greeting', hgreeted, hold⟩ := h.message_eq hrunning id place c hp hfind
      rw [hm] at hgreeted
      cases hgreeted
      refine allRenew_append.2 ⟨h.allRenew id greeting hm, ?_, trivial⟩
      rw [hold]
      exact hrenews
    · exact h.allRenew id greeting hm

theorem turn (h : Remembered s log) (henrolled : Enrolled s log) {e : Engine}
    {next : Stream.Step} (hturn : Stream.Turn e s next events) :
    Remembered next.stream (log ++ events) := by
  cases hturn with
  | stop =>
    exact h.of_keeps (fun id => by rw [ledger_append_nil]) (fun id => by rw [ledger_append_nil])
      (fun id place hp => by rwa [ledger_append_nil] at hp) fun hp => absurd rfl hp
  | @refuse id selector discriminator context queue c hphase hqueue hchannel hout =>
    refine h.of_effects [] (by simp [hphase]) ?_
    rw [← hchannel]
    exact s.worker.keeps_collect_channelFor e.evaluator (selector, discriminator) context
  | @join id selector discriminator context queue c out hphase hqueue hchannel hattempt hout =>
    exact h.join henrolled (by rw [hqueue]; exact List.mem_cons_self) hphase hchannel rfl
  | @ignore id selector discriminator queue hphase =>
    have hmail := fun id' => sameMail_closed id' log id (selector, discriminator) []
    exact h.of_keeps (fun id' => (hmail id').greeting_eq) (fun id' => (hmail id').due_eq)
      (fun id' => (hmail id').place_eq) fun _ => ⟨by simp [hphase], .refl _⟩
  | @depart id selector discriminator queue c hphase hqueue hfind hmember =>
    have hmail := fun id' =>
      sameMail_closed id' log id (selector, discriminator) [.metric (.closed selector)]
    have hput := ChannelIndex.keeps_put (d := c.leave id) (selector, discriminator) hfind rfl rfl
    exact h.of_keeps (fun id' => (hmail id').greeting_eq) (fun id' => (hmail id').due_eq)
      (fun id' => (hmail id').place_eq)
      fun _ => ⟨by simp [hphase],
        hput.trans (ChannelIndex.keeps_collect _ (selector, discriminator))⟩
  | begin hphase => exact h.of_effects [] (by simp [hphase]) (.refl _)
  | pass hphase => exact h.of_effects [] (by simp [hphase]) (.refl _)
  | produce hphase htodo hfind hrefresh =>
    obtain ⟨hnew, hrenews⟩ := Snapshot.refresh_eq_some hrefresh
    exact h.produce (by simp [hphase]) hfind rfl hnew hrenews
  | endPass hphase =>
    refine h.of_effects _ (by simp [hphase]) ?_
    rw [Worker.endPass_index]
    exact Worker.keeps_collected _ _
  | @serve pass push id waiting out hphase hwaiting hattempt hout =>
    obtain ⟨box, hbox⟩ := henrolled.exists_box (by rw [hphase]; rfl) hwaiting
    rw [hbox, Option.map_some, Option.toList_some]
    refine h.of_keeps (fun id' => ?_) (fun id' => ?_) (fun id' place hp => ?_)
      fun _ => ⟨by simp [hphase], .refl _⟩
    · rw [ledger_offered]
      split <;> rfl
    · rw [ledger_offered]
      split <;> rfl
    · rw [ledger_offered] at hp
      split at hp
      · cases hlistening : box.listening with
        | true => simpa [hlistening] using hp
        | false => simp [hlistening] at hp
      · exact hp
  | stall hphase => exact h.of_effects [] (by simp [hphase]) (.refl _)
  | resume hphase => exact h.of_effects [] (by simp [hphase]) (.refl _)
  | endPush hphase => exact h.of_effects _ (by simp [hphase]) (Worker.keeps_endPush _ _ _)

theorem move (h : Remembered s log) (henrolled : Enrolled s log)
    (hmove : Stream.Move s s' events) : Remembered s' (log ++ events) := by
  have hclient : ∀ {s' : Stream} {events : List Event}, s'.worker = s.worker →
      (∀ id, ledger id (log ++ events) = ledger id log) → Remembered s' (log ++ events) :=
    fun hworker hledger => h.of_keeps (fun id => by rw [hledger]) (fun id => by rw [hledger])
      (fun id place hp => hledger id ▸ hp) fun hp => ⟨hworker ▸ hp, hworker ▸ .refl _⟩
  cases hmove with
  | still => exact hclient rfl fun id => by rw [ledger_append_nil]
  | connect => exact hclient rfl fun id => by rw [ledger_opened]
  | connectClosed => exact hclient rfl fun id => by rw [ledger_opened]
  | disconnect => exact hclient rfl fun id => by rw [ledger_append_nil]
  | take => exact hclient rfl fun id => by rw [ledger_taken]
  | leave => exact hclient rfl fun id => by rw [ledger_append_nil]
  | close => exact hclient rfl fun id => by rw [ledger_append_nil]
  | work hturn => exact h.turn henrolled hturn

end Remembered

theorem Run.remembered {s : Stream} {log : List Event} (h : Run s log) : Remembered s log :=
  h.induct
    (fun _ _ _ _ _ _ =>
      { message_eq := fun _ _ _ _ hp => nomatch hp
        allRenew := fun _ _ hm => nomatch hm })
    fun hrun ih hmove => ih.move hrun.enrolled hmove

/-! ## Rebuilding -/

/-- A connection for which nothing was skipped got the greeting and whatever it was offered while
its receiver was there. -/
theorem Offered.placed_of_unskipped {s : Stream} {log : List Event} {id : ConnectionId}
    (h : Offered s log id) {m : Message} (hgreeted : (ledger id log).greeting = some m)
    (hmissed : ∀ m', .effect (.skipped id m') ∉ log) :
    placed id log = m :: ((ledger id log).offers.filter (·.2.listening)).map (·.1) := by
  have hroom := (h.skipped_of_greeting m hgreeted).resolve_right (hmissed m)
  have haccepted : (ledger id log).offers.filter (·.2.accepts) =
      (ledger id log).offers.filter (·.2.listening) := by
    refine List.filter_congr fun o ho => ?_
    cases hlistening : o.2.listening with
    | true => exact (h.skipped_of_offer o ho hlistening).resolve_right (hmissed o.1)
    | false => rw [Mailbox.accepts, hlistening, Bool.false_and]
  rw [h.placed_eq hroom, hgreeted, haccepted]
  rfl

/-- A connection that was greeted has a mailbox, and what was placed in it was taken or waits there,
as long as somebody may take it. -/
theorem Run.exists_box_of_greeting {s : Stream} {log : List Event} (h : Run s log)
    {id : ConnectionId} {m : Message} (hgreeted : (ledger id log).greeting = some m) :
    ∃ box, s.mailboxes.get? id.number = some box ∧
      (box.listening = true → taken id log ++ box.messages = placed id log) := by
  have hne : ledger id log ≠ .blank := by
    intro hblank
    rw [hblank] at hgreeted
    cases hgreeted
  obtain ⟨hstream, hlt⟩ := h.enrolled.known id (.inr hne)
  obtain ⟨box, hbox⟩ := Mailboxes.exists_get?_of_lt hlt
  have hid : id = ⟨s.serial, id.number⟩ := by rw [← hstream]
  refine ⟨box, hbox, fun hlistening => ?_⟩
  rw [hid]
  exact (h.kept.placed_eq id.number box hbox hlistening).symm

/-- **A client can rebuild the state of its channel** from what it was sent, as long as nothing was
skipped, and nothing that it was sent is superfluous. What it was sent is what it took out of its
mailbox, and behind that what waits there. -/
theorem Run.rebuilds {s : Stream} {log : List Event} (h : Run s log) {id : ConnectionId}
    {m : Message} (hgreeted : (ledger id log).greeting = some m)
    (hmissed : ∀ m', .effect (.skipped id m') ∉ log) :
    ∃ rest, placed id log = m :: rest ∧ AllRenew m rest ∧
      (∃ box, s.mailboxes.get? id.number = some box ∧
        (box.listening = true → taken id log ++ box.messages = m :: rest)) ∧
      (s.worker.phase ≠ .stopped → s.worker.phase.push? = none → ∀ (place : Place) c,
        s.worker.index.find? place.1 place.2 = some c → id ∈ c.members →
          rest.foldl .lay m = c.last.message) := by
  have hoffered := h.offered id
  have hplaced := hoffered.placed_of_unskipped hgreeted hmissed
  refine ⟨_, hplaced, ?_, hplaced ▸ h.exists_box_of_greeting hgreeted,
    fun hrunning hpush place c hfind hid => ?_⟩
  · obtain ⟨owed, hdue, -⟩ := hoffered.exists_due_eq
    refine (h.remembered.allRenew id m hgreeted).of_isPrefix ?_
    rw [hdue]
    exact (hoffered.listening_isPrefix.map _).trans (List.prefix_append ..)
  · have hplace : (ledger id log).place = some place := by
      rw [← h.enrolled.mem_roster_iff hrunning, Worker.roster_of_push?_eq_none hpush,
        ChannelIndex.membersAt_of_find? hfind]
      exact hid
    have hdue := hoffered.due_eq hrunning
    rw [Worker.owed_of_push?_eq_none hpush, List.append_nil] at hdue
    obtain ⟨m', hm', hmessage⟩ := h.remembered.message_eq hrunning id place c hplace hfind
    rw [hgreeted] at hm'
    cases hm'
    rw [List.filter_eq_self.2 (hoffered.listening_of_place place hplace), ← hdue]
    exact hmessage

/-- Whether a message was skipped. -/
def Event.isSkip : Event → Bool
  | effect (.skipped _ _) => true
  | _ => false

/-- A connection to all flags that takes its messages in time. -/
theorem rebuilds_after_change :
    ∃ s log m, Run s log ∧ (ledger ⟨0, 0⟩ log).greeting = some m ∧
      (∀ m', .effect (.skipped ⟨0, 0⟩ m') ∉ log) ∧ s.worker.phase = .idle ∧
      (placed ⟨0, 0⟩ log).length = 2 ∧ s.worker.index.membersAt (.all, 0) = [⟨0, 0⟩] ∧
      ∃ rest, placed ⟨0, 0⟩ log = m :: rest ∧ AllRenew m rest ∧
        (∃ box, s.mailboxes.get? 0 = some box ∧
          (box.listening = true → taken ⟨0, 0⟩ log ++ box.messages = m :: rest)) ∧
        (s.worker.phase ≠ .stopped → s.worker.phase.push? = none → ∀ (place : Place) c,
          s.worker.index.find? place.1 place.2 = some c → ⟨0, 0⟩ ∈ c.members →
            rest.foldl .lay m = c.last.message) := by
  let acts : List Stream.Act :=
    [.connect .all none, .work (trialEngine true), .take 0] ++
      List.replicate 5 (.work (trialEngine false))
  let last := ((trialStream .dropNewest).acts? acts).get (by decide)
  let m := (ledger ⟨0, 0⟩ last.2).greeting.get (by decide)
  have hrun : Run last.1 ([] ++ last.2) :=
    (run_trialStream .dropNewest).acts (Option.some_get _).symm
  have hgreeted : (ledger ⟨0, 0⟩ last.2).greeting = some m := (Option.some_get _).symm
  have hnone : last.2.any Event.isSkip = false := by decide
  have hmissed : ∀ m', .effect (.skipped ⟨0, 0⟩ m') ∉ last.2 := by
    intro m' hm'
    exact List.any_eq_false.1 hnone _ hm' rfl
  exact ⟨last.1, last.2, m, hrun, hgreeted, hmissed, rfl, by decide, by decide,
    hrun.rebuilds hgreeted hmissed⟩

end FlagFanout
