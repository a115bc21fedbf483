import FlagFanout.Proofs.Stream.Bystanders
import FlagFanout.Proofs.Stream.Delivery
import FlagFanout.Proofs.Stream.Orderly

/-!
# Joining is all or nothing

The worker writes the channel of a newcomer into the index before it offers the newcomer anything,
so a newcomer that turns out to be gone must leave neither a channel nor a bucket behind. Giving up
what was just written brings the index back exactly (`ChannelIndex.collect_put_of_find?`,
`ChannelIndex.collect_put_of_find?_eq_none`), because between two jobs no channel is empty and no
bucket is.

The mailbox of a newcomer is still empty, so the greeting is sent or refused under either policy:
it is never dropped and the worker never waits (`Offered.mailbox_of_newcomer`).

`Run.joins_wholly` puts the two together.
-/

namespace FlagFanout

/-! ## Written and given up again -/

namespace ChannelIndex

variable {i : ChannelIndex} {c : Channel}

/-- A channel with members is not given up. -/
theorem collect_put_of_find? (htight : i.Tight) (place : Place)
    (hfind : i.find? place.1 place.2 = some c) (hmembers : c.members ≠ []) :
    (i.put place.1 place.2 c).collect place.1 place.2 = i := by
  refine ((htight.put place c).collect place).ext_find? htight fun place' => ?_
  have hstays : ∀ c', (i.put place.1 place.2 c).find? place.1 place.2 = some c' →
      c'.members ≠ [] := by
    intro c' hc'
    rw [find?_put_self] at hc'
    cases hc'
    exact hmembers
  rw [find?_collect_of_members hstays, find?_put]
  split
  · next heq => rw [heq, hfind]
  · rfl

/-- A channel without members is given up, with a bucket that was made for it. -/
theorem collect_put_of_find?_eq_none (htight : i.Tight) (place : Place)
    (hfind : i.find? place.1 place.2 = none) (hmembers : c.members = []) :
    (i.put place.1 place.2 c).collect place.1 place.2 = i := by
  refine ((htight.put place c).collect place).ext_find? htight fun place' => ?_
  have hempty : c.isEmpty = true := List.isEmpty_iff.2 hmembers
  rw [find?_collect, find?_put_self, Option.any_some, hempty, find?_put]
  by_cases heq : place' = place
  · rw [if_pos ⟨heq, rfl⟩, heq, hfind]
  · rw [if_neg fun hc => heq hc.1, if_neg heq]

end ChannelIndex

/-- A newcomer that does not join leaves the worker as it was. -/
theorem Orderly.refuse_eq {s : Stream} {log : List Event} (h : Orderly s log) (ev : Evaluator)
    (place : Place) (context : Option Context) :
    { s.worker with
      index := s.worker.index.put place.1 place.2
        (s.worker.channelFor ev place.1 place.2 context) }.collect place = s.worker := by
  have hindex : (s.worker.index.put place.1 place.2
      (s.worker.channelFor ev place.1 place.2 context)).collect place.1 place.2 =
        s.worker.index := by
    cases hfind : s.worker.index.find? place.1 place.2 with
    | none =>
      rw [Worker.channelFor_of_find?_eq_none hfind]
      exact ChannelIndex.collect_put_of_find?_eq_none h.bucket_ne_empty place hfind rfl
    | some c =>
      rw [Worker.channelFor_of_find? hfind]
      exact ChannelIndex.collect_put_of_find? h.bucket_ne_empty place hfind
        (h.members_ne_nil place c hfind)
  unfold Worker.collect Worker.recount
  simp only [hindex, ← h.channels_eq]

/-! ## Joining -/

/-- A connection joined the channel `c`: it comes last there, its mailbox holds the state of the
channel and nothing else, and whatever is not its own stays as it was. -/
structure Seated (w : Worker) (boxes : Mailboxes) (id : ConnectionId) (place : Place)
    (c : Channel) (r : Worker.Result) : Prop where
  channel_eq : r.worker.index.find? place.1 place.2 =
    some { c with members := c.members ++ [id] }
  others_eq : ∀ place' : Place, place' ≠ place →
    r.worker.index.find? place'.1 place'.2 = w.index.find? place'.1 place'.2
  counters_eq : r.worker.counters =
    ⟨w.counters.openConnections + 1, r.worker.index.count, w.counters.sent + 1,
      w.counters.dropped⟩
  phase_eq : r.worker.phase = w.phase
  mailbox_eq : r.mailboxes.get? id.number =
    (boxes.get? id.number).map fun box => { box with messages := [c.last.message] }
  other_mailboxes_eq : ∀ n, n ≠ id.number → r.mailboxes.get? n = boxes.get? n
  effects_eq : r.effects =
    [.placed id c.last.message, .metric (.sent 1 place.1), .metric (.opened place.1)]

theorem Worker.seated_of_sent {w : Worker} {boxes : Mailboxes} {id : ConnectionId} {box : Mailbox}
    {policy : DeliveryPolicy} (hbox : boxes.get? id.number = some box)
    (hmessages : box.messages = []) (hsent : box.attempt policy = .sent) (place : Place)
    (c : Channel) :
    Seated w boxes id place c
      ⟨(w.count Attempt.sent.tally).join place.1 place.2 c id,
        boxes.offer policy id.number c.last.message,
        Attempt.sent.trace id c.last.message ++ report place.1 Attempt.sent.tally ++
          [.metric (.opened place.1)]⟩ where
  channel_eq := ChannelIndex.find?_put_self ..
  others_eq place' hne := (ChannelIndex.find?_put ..).trans (if_neg hne)
  counters_eq := rfl
  phase_eq := rfl
  mailbox_eq := by
    change (boxes.modify id.number _).get? id.number = _
    rw [Mailboxes.get?_modify, if_pos rfl, hbox, Option.map_some, Option.map_some,
      Mailbox.offer_of_sent hsent, Mailbox.push, hmessages]
    rfl
  other_mailboxes_eq n hn := (Mailboxes.get?_modify ..).trans (if_neg hn)
  effects_eq := rfl

/-- What becomes of a command that asks to register a connection, under a policy and with what the
engine serves. -/
structure JoinsWholly (s : Stream) (id : ConnectionId) (place : Place)
    (context : Option Context) (policy : DeliveryPolicy) (ev : Evaluator) : Prop where
  exists_mailbox : ∃ box, s.mailboxes.get? id.number = some box
  /-- The worker never waits and never drops the greeting: it is sent, or there is nobody to get
  it. -/
  attempt_eq : ∀ box, s.mailboxes.get? id.number = some box →
    s.mailboxes.attempt policy id.number = if box.listening then .sent else .disconnected
  /-- Of a newcomer that is gone there is no trace. -/
  handle_of_gone : ∀ box, s.mailboxes.get? id.number = some box → box.listening = false →
    s.worker.handle policy ev s.mailboxes (.established id place.1 place.2 context) =
      some ⟨s.worker, s.mailboxes, []⟩
  seated_of_listening : ∀ box, s.mailboxes.get? id.number = some box → box.listening = true →
    ∃ r, s.worker.handle policy ev s.mailboxes (.established id place.1 place.2 context) =
        some r ∧
      Seated s.worker s.mailboxes id place
        (s.worker.channelFor ev place.1 place.2 context) r

/-- **Joining is all or nothing**: whoever waits to be registered while the worker is between two
jobs becomes the last member of its channel, with the state of the channel alone in its mailbox, or
is gone and leaves no trace. -/
theorem Run.joins_wholly {s : Stream} {log : List Event} (h : Run s log) {layer : ConfigLayer}
    (hconfig : layer.finalize = .ok s.config) (hphase : s.worker.phase = .idle)
    {id : ConnectionId} {selector : Selector} {discriminator : UInt64}
    {context : Option Context}
    (hcommand : .established id selector discriminator context ∈ s.queue)
    (policy : DeliveryPolicy) (ev : Evaluator) :
    JoinsWholly s id (selector, discriminator) context policy ev := by
  have hroom := ConfigLayer.mailboxCapacity_pos hconfig
  have hid : id ∈ newcomers s.queue := List.mem_filterMap.2 ⟨_, hcommand, rfl⟩
  obtain ⟨listening, hbox⟩ := (h.offered id).mailbox_of_newcomer h.enrolled h.kept hroom hid
  have hattempt : s.mailboxes.attempt policy id.number =
      if listening then .sent else .disconnected := by
    rw [Mailboxes.attempt_of_get? hbox, Mailbox.attempt_of_empty hroom]
  have heq : ∀ {box}, s.mailboxes.get? id.number = some box →
      box = ⟨s.config.mailboxCapacity, [], listening⟩ :=
    fun hb => Option.some.inj (hb.symm.trans hbox)
  refine
    { exists_mailbox := ⟨_, hbox⟩
      attempt_eq := fun box hb => heq hb ▸ hattempt
      handle_of_gone := fun box hb hgone => ?_
      seated_of_listening := fun box hb hlistening => ?_ }
  · obtain rfl : listening = false := by rwa [heq hb] at hgone
    refine (Worker.establish_of_refused ev selector discriminator context hattempt).trans ?_
    exact congrArg (fun w => some (Worker.Result.mk w s.mailboxes []))
      ((h.orderly_of_idle hphase).refuse_eq ev (selector, discriminator) context)
  · obtain rfl : listening = true := by rwa [heq hb] at hlistening
    have hheard : s.mailboxes.attempt policy id.number ∈ [.sent, .dropped] := by
      rw [hattempt]
      exact List.mem_cons_self
    refine ⟨_, Worker.establish_of_heard ev selector discriminator context hheard, ?_⟩
    rw [hattempt]
    exact Worker.seated_of_sent hbox rfl (Mailbox.attempt_of_empty hroom true policy) _ _

/-- Beside a member of one channel there wait a newcomer to that channel and one to a selector that
has no bucket yet; the second is gone. -/
theorem joins_wholly_after_leave :
    ∃ s log, ∃ layer : ConfigLayer, Run s log ∧ layer.finalize = .ok s.config ∧
      s.worker.phase = .idle ∧
      s.worker.index.members = [⟨0, 0⟩] ∧
      (s.mailboxes.get? 1).map (·.listening) = some true ∧
      (s.mailboxes.get? 2).map (·.listening) = some false ∧
      (∀ policy ev, JoinsWholly s ⟨0, 1⟩ (.flag "f", 0) none policy ev) ∧
      ∀ policy ev, JoinsWholly s ⟨0, 2⟩ (.all, 0) none policy ev := by
  let acts : List Stream.Act :=
    [.connect (.flag "f") none, .work (trialEngine true), .connect (.flag "f") none,
      .connect .all none, .leave 2]
  let last := ((trialStream .block).acts? acts).get (by decide)
  let layer : ConfigLayer := ⟨some 1, some 4, some .block, some "s"⟩
  have hrun : Run last.1 ([] ++ last.2) :=
    (run_trialStream .block).acts (Option.some_get _).symm
  have hconfig : layer.finalize = .ok last.1.config := by rfl
  have hidle : last.1.worker.phase = .idle := by rfl
  have hqueue : last.1.queue = [.established ⟨0, 1⟩ (.flag "f") 0 none,
      .established ⟨0, 2⟩ .all 0 none] := by rfl
  exact ⟨last.1, last.2, layer, hrun, hconfig, hidle, by decide, by decide, by decide,
    hrun.joins_wholly hconfig hidle (by rw [hqueue]; exact .head _),
    hrun.joins_wholly hconfig hidle (by rw [hqueue]; exact .tail _ (.head _))⟩

end FlagFanout
