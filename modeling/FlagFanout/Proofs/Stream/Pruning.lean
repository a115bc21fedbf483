import FlagFanout.Proofs.Stream.Leaving
import FlagFanout.Proofs.Stream.VisitingOrder

/-!
# Pruning is the same as closing

A pass finds members gone while it pushes to them. They stay in the books until the pass is over,
and are taken off all at once. `Run.prunes_as_closes` says that this comes to the same as closing
them one by one before the pass.

The proof runs the two passes side by side. `Departures` says who is to leave, `Tracks` what becomes
of the channels in the pass that finds it out, and `Mirrors` how the worker that has been told is to
follow: it has the channels with the members that stay, and the same push with those of them who
wait. It takes the same step (`Mirrors.advance`), or waits where the first worker looks at a channel
of which nobody is left or at a member that is gone. In the last step all who were found gone leave,
and the books make the two workers equal (`Mirrors.endPass`).

Receivers do not go away while the passes are on, but messages may be taken out of the mailboxes, so
the policy makes no difference.
-/

namespace FlagFanout

/-- Only the end of a pass leads between two jobs. -/
theorem Worker.Advance.exists_endPass {policy : DeliveryPolicy} {engine : Place → Evaluator}
    {w : Worker} {boxes : Mailboxes} {r : Worker.Result}
    (h : Worker.Advance policy engine w boxes r) (hidle : r.worker.phase = .idle) :
    ∃ p, w.phase = .visiting p ∧ p.todo = [] ∧ r = ⟨(w.endPass p).1, boxes, (w.endPass p).2⟩ := by
  cases h with
  | endPass hphase htodo => exact ⟨_, hphase, htodo, rfl⟩
  | endPush =>
    rw [Worker.endPush_phase] at hidle
    cases hidle
  | pass | produce | serve | stall | resume => cases hidle

/-! ## Who is to leave -/

/-- The tally without those who were found gone. -/
def Tally.heard (t : Tally) : Tally := { t with disconnected := 0 }

/-- The channels before a pass, who hears of it, and where something moves: there the members that
do not hear of it leave. -/
structure Departures where
  index : ChannelIndex
  hears : ConnectionId → Bool
  moves : Place → Bool

namespace Departures

variable (d : Departures)

/-- Whether a member of the channel at a place stays. -/
def stays (place : Place) (id : ConnectionId) : Bool := d.hears id || !d.moves place

/-- The members that stay, in order. -/
def staying (place : Place) : List ConnectionId := (d.index.membersAt place).filter (d.stays place)

theorem filter_staying (place : Place) :
    (d.staying place).filter (d.stays place) = d.staying place :=
  (List.filter_filter ..).trans (List.filter_congr fun _ _ => Bool.and_self _)

/-- Whether anybody stays. -/
def remains (place : Place) : Bool := !(d.staying place).isEmpty

/-- The pass if all others left before. -/
def pass (p : Pass) : Pass := ⟨p.todo.filter d.remains, p.total.heard, []⟩

theorem pass_todo_of_remains {p : Pass} {place : Place} {todo : List Place}
    (hremains : d.remains place = true) (htodo : p.todo = place :: todo) :
    (d.pass p).todo = place :: todo.filter d.remains := by
  rw [pass, htodo, List.filter_cons_of_pos hremains]

/-- Where nobody stays there is no channel to visit. -/
theorem pass_of_not_remains {p : Pass} {place : Place} {todo : List Place}
    (hremains : d.remains place = false) (htodo : p.todo = place :: todo) :
    d.pass { p with todo } = d.pass p := by
  rw [pass, pass, htodo, List.filter_cons_of_neg (by simp [hremains])]

/-- The push if all others left before. -/
def push (p : Push) : Push :=
  { p with waiting := p.waiting.filter (d.stays p.place), tally := p.tally.heard }

/-- How a pass and the pass after the departures keep step. Where nobody stays the second one has
nobody to push to, and waits for the first to be through with its push. -/
inductive Matches : Phase → Phase → Prop
  | visiting (p : Pass) : Matches (.visiting p) (.visiting (d.pass p))
  | pushing (p : Pass) {q : Push} (hremains : d.remains q.place = true) :
    Matches (.pushing p q) (.pushing (d.pass p) (d.push q))
  | alone (p : Pass) {q : Push} (hremains : d.remains q.place = false)
    (htally : q.tally.heard = .zero) : Matches (.pushing p q) (.visiting (d.pass p))
  | stalled (p : Pass) {q : Push} {id : ConnectionId} {waiting : List ConnectionId}
    (hremains : d.remains q.place = true) (hwaiting : q.waiting = id :: waiting)
    (hhears : d.hears id = true) : Matches (.stalled p q) (.stalled (d.pass p) (d.push q))

/-- What a pass makes of the channels while it goes on. -/
structure Tracks (w : Worker) : Prop where
  staying_eq : ∀ place, (w.index.membersAt place).filter (d.stays place) = d.staying place
  /-- A channel is as it was until it is visited, and for good where nothing moves. -/
  find?_eq : ∀ place, place ∈ w.phase.todo ∨ d.moves place = false →
    w.index.find? place.1 place.2 = d.index.find? place.1 place.2
  /-- Where the pass is through, only those are left who stay. -/
  stays_of_mem : ∀ place, place ∉ w.phase.todo →
    (∀ push, w.phase.push? = some push → push.place ≠ place) →
      ∀ id ∈ w.index.membersAt place, d.stays place id = true
  todo_nodup : w.phase.todo.Nodup
  moves_of_push? : ∀ push, w.phase.push? = some push → d.moves push.place = true
  notMem_of_push? : ∀ push, w.phase.push? = some push → push.place ∉ w.phase.todo
  served_eq : ∀ push, w.phase.push? = some push →
    push.served ++ push.waiting.filter (d.stays push.place) = d.staying push.place

namespace Tracks

variable {d} {w : Worker} {engine : Place → Evaluator}

/-- The channel that is visited next is as it was. -/
theorem moved?_eq (h : d.Tracks w) {pass : Pass} {place : Place} {todo : List Place}
    (hphase : w.phase = .visiting pass) (htodo : pass.todo = place :: todo) :
    w.index.moved? engine place = d.index.moved? engine place := by
  have hold : w.phase.todo = place :: todo := by rw [hphase]; exact htodo
  have hmem : place ∈ w.phase.todo := hold ▸ List.mem_cons_self
  unfold ChannelIndex.moved?
  rw [h.find?_eq place (.inl hmem)]

/-- The pass goes on to the next channel. -/
theorem pass (h : d.Tracks w) {pass : Pass} {place : Place} {todo : List Place}
    (hphase : w.phase = .visiting pass) (htodo : pass.todo = place :: todo)
    (hstays : ∀ id ∈ w.index.membersAt place, d.stays place id = true) :
    d.Tracks { w with phase := .visiting { pass with todo } } := by
  have hold : w.phase.todo = place :: todo := by rw [hphase]; exact htodo
  have hpush : ∀ push, w.phase.push? = some push → False := by simp [hphase, Phase.push?]
  refine
    { staying_eq := h.staying_eq
      find?_eq := fun place' hplace => h.find?_eq place' (hplace.imp_left fun hmem => ?_)
      stays_of_mem := fun place' hmem _ => ?_
      todo_nodup := (List.nodup_cons.1 (hold ▸ h.todo_nodup)).2
      moves_of_push? := fun push hp => nomatch hp
      notMem_of_push? := fun push hp => nomatch hp
      served_eq := fun push hp => nomatch hp }
  · rw [hold]
    exact List.mem_cons_of_mem _ hmem
  · by_cases hplace : place' = place
    · exact hplace ▸ hstays
    · refine h.stays_of_mem place' (fun hc => ?_) fun push hp => (hpush push hp).elim
      rw [hold] at hc
      exact (List.mem_cons.1 hc).elim hplace hmem

/-- A message is about to be pushed to the next channel. -/
theorem produce (h : d.Tracks w) {pass : Pass} {place : Place} {todo : List Place} {c : Channel}
    {last : Snapshot} {m : Message} (hphase : w.phase = .visiting pass)
    (htodo : pass.todo = place :: todo) (hfind : w.index.find? place.1 place.2 = some c)
    (hmoves : d.moves place = true) :
    d.Tracks
      { w with
        index := w.index.put place.1 place.2 { c with last }
        phase := .pushing { pass with todo } ⟨place, m, [], c.members, .zero⟩ } := by
  have hold : w.phase.todo = place :: todo := by rw [hphase]; exact htodo
  obtain ⟨hnot, hnodup⟩ := List.nodup_cons.1 (hold ▸ h.todo_nodup)
  have hpush : ∀ push, w.phase.push? = some push → False := by simp [hphase, Phase.push?]
  have hmembers : ∀ place', (w.index.put place.1 place.2 { c with last }).membersAt place' =
      w.index.membersAt place' := by
    intro place'
    rw [ChannelIndex.membersAt_put]
    split
    · next heq => rw [heq, ChannelIndex.membersAt_of_find? hfind]
    · rfl
  refine
    { staying_eq := fun place' => (hmembers place').symm ▸ h.staying_eq place'
      find?_eq := fun place' hplace => ?_
      stays_of_mem := fun place' hmem hother => ?_
      todo_nodup := hnodup
      moves_of_push? := fun push hp => by cases hp; exact hmoves
      notMem_of_push? := fun push hp => by cases hp; exact hnot
      served_eq := fun push hp => ?_ }
  · have hne : place' ≠ place := by
      rintro rfl
      exact hplace.elim hnot fun hc => Bool.false_ne_true (hc.symm.trans hmoves)
    refine (ChannelIndex.find?_put ..).trans ((if_neg hne).trans (h.find?_eq place' ?_))
    exact hplace.imp_left fun hmem => hold ▸ List.mem_cons_of_mem _ hmem
  · rw [hmembers]
    refine h.stays_of_mem place' (fun hc => ?_) fun push hp => (hpush push hp).elim
    rw [hold] at hc
    exact (List.mem_cons.1 hc).elim (fun heq => hother _ rfl heq.symm) hmem
  · cases hp
    rw [List.nil_append, ← h.staying_eq, ChannelIndex.membersAt_of_find? hfind]

/-- A push goes on, or waits. -/
theorem with_push (h : d.Tracks w) {phase : Phase} {push push' : Push}
    (hpush : w.phase.push? = some push) (hpush' : phase.push? = some push')
    (hplace : push'.place = push.place) (htodo : phase.todo = w.phase.todo)
    (hserved : push'.served ++ push'.waiting.filter (d.stays push.place) =
      push.served ++ push.waiting.filter (d.stays push.place)) :
    d.Tracks { w with phase } where
  staying_eq := h.staying_eq
  find?_eq place hmem := h.find?_eq place (htodo ▸ hmem)
  stays_of_mem place hmem hother := h.stays_of_mem place (htodo ▸ hmem) fun q hq => by
    obtain rfl : push = q := Option.some.inj (hpush.symm.trans hq)
    exact hplace ▸ hother push' hpush'
  todo_nodup := htodo ▸ h.todo_nodup
  moves_of_push? q hq := by
    obtain rfl : push' = q := Option.some.inj (hpush'.symm.trans hq)
    exact hplace ▸ h.moves_of_push? push hpush
  notMem_of_push? q hq := by
    obtain rfl : push' = q := Option.some.inj (hpush'.symm.trans hq)
    exact htodo ▸ hplace ▸ h.notMem_of_push? push hpush
  served_eq q hq := by
    obtain rfl : push' = q := Option.some.inj (hpush'.symm.trans hq)
    rw [hplace, hserved, h.served_eq push hpush]

/-- Where there is a push something moves, so whoever hears of it stays. -/
theorem stays_eq (h : d.Tracks w) {push : Push} (hpush : w.phase.push? = some push)
    (id : ConnectionId) : d.stays push.place id = d.hears id := by
  rw [stays, h.moves_of_push? push hpush]
  exact Bool.or_false _

theorem filter_waiting_of_gone (h : d.Tracks w) {push : Push} (hpush : w.phase.push? = some push)
    {id : ConnectionId} {waiting : List ConnectionId} (hwaiting : push.waiting = id :: waiting)
    (hgone : d.hears id = false) :
    push.waiting.filter (d.stays push.place) = waiting.filter (d.stays push.place) := by
  rw [hwaiting, List.filter_cons_of_neg]
  rw [h.stays_eq hpush, hgone]
  exact Bool.false_ne_true

theorem filter_waiting_of_hears (h : d.Tracks w) {push : Push}
    (hpush : w.phase.push? = some push) {id : ConnectionId} {waiting : List ConnectionId}
    (hwaiting : push.waiting = id :: waiting) (hhears : d.hears id = true) :
    push.waiting.filter (d.stays push.place) = id :: waiting.filter (d.stays push.place) := by
  rw [hwaiting, List.filter_cons_of_pos ((h.stays_eq hpush id).trans hhears)]

/-- The next member was offered the message. -/
theorem serve (h : d.Tracks w) {policy : DeliveryPolicy} {boxes : Mailboxes} {pass : Pass}
    {push : Push} {id : ConnectionId} {waiting : List ConnectionId} {out : Attempt} {t : Tally}
    (hphase : w.phase = .pushing pass push) (hwaiting : push.waiting = id :: waiting)
    (hattempt : boxes.attempt policy id.number = out) (hhears : boxes.hears = d.hears) :
    d.Tracks { w with
      phase := .pushing pass { push with
        served := if out = .disconnected then push.served else push.served ++ [id]
        waiting
        tally := t } } := by
  have hpush : w.phase.push? = some push := by rw [hphase]; rfl
  refine h.with_push hpush rfl rfl (by rw [hphase]; rfl) ?_
  by_cases hgone : out = .disconnected
  · have hleft : d.hears id = false :=
      hhears ▸ Mailboxes.hears_eq_false_iff.2 (hattempt.trans hgone)
    rw [h.filter_waiting_of_gone hpush hwaiting hleft, if_pos hgone]
  · have hheard : d.hears id = true := hhears ▸ Mailboxes.hears_iff.2 (hattempt ▸ hgone)
    rw [h.filter_waiting_of_hears hpush hwaiting hheard, if_neg hgone, List.append_assoc]
    rfl

/-- Where a member that hears of it waits, somebody stays. -/
theorem remains_of_waiting (h : d.Tracks w) {push : Push} (hpush : w.phase.push? = some push)
    {id : ConnectionId} (hid : id ∈ push.waiting) (hhears : d.hears id = true) :
    d.remains push.place = true := by
  have hmem : id ∈ d.staying push.place := by
    rw [← h.served_eq push hpush]
    refine List.mem_append_right _ (List.mem_filter.2 ⟨hid, ?_⟩)
    rw [h.stays_eq hpush, hhears]
  have hne : d.staying push.place ≠ [] := List.ne_nil_of_mem hmem
  simpa [remains] using hne

/-- At the end of a push those are served who stay. -/
theorem served_eq_staying (h : d.Tracks w) {push : Push} (hpush : w.phase.push? = some push)
    (hwaiting : push.waiting = []) : push.served = d.staying push.place := by
  have heq := h.served_eq push hpush
  rwa [hwaiting, List.filter_nil, List.append_nil] at heq

/-- A push is over: whoever was served stays. -/
theorem endPush (h : d.Tracks w) {pass : Pass} {push : Push} {c : Channel}
    (hphase : w.phase = .pushing pass push) (hwaiting : push.waiting = [])
    (hfind : w.index.find? push.place.1 push.place.2 = some c) :
    d.Tracks (w.endPush pass push).1 := by
  have hpush : w.phase.push? = some push := by rw [hphase]; rfl
  have hold : w.phase.todo = pass.todo := by rw [hphase]; rfl
  have hnodup : pass.todo.Nodup := hold ▸ h.todo_nodup
  have hserved := h.served_eq_staying hpush hwaiting
  have hmembers : ∀ place', (w.index.put push.place.1 push.place.2
      { c with members := push.served }).membersAt place' =
        if place' = push.place then push.served else w.index.membersAt place' :=
    fun place' => ChannelIndex.membersAt_put ..
  rw [Worker.endPush_of_find? hfind]
  refine
    { staying_eq := fun place' => ?_
      find?_eq := fun place' hplace => ?_
      stays_of_mem := fun place' hmem _ => ?_
      todo_nodup := hnodup
      moves_of_push? := fun push hp => nomatch hp
      notMem_of_push? := fun push hp => nomatch hp
      served_eq := fun push hp => nomatch hp }
  · rw [hmembers]
    split
    · next heq =>
      rw [hserved, heq, d.filter_staying]
    · exact h.staying_eq place'
  · have hne : place' ≠ push.place := by
      rintro rfl
      rcases hplace with hmem | hquiet
      · exact h.notMem_of_push? push hpush (hold ▸ hmem)
      · exact Bool.false_ne_true (hquiet.symm.trans (h.moves_of_push? push hpush))
    refine (ChannelIndex.find?_put ..).trans ((if_neg hne).trans (h.find?_eq place' ?_))
    exact hplace.imp_left fun hmem => hold ▸ hmem
  · rw [hmembers]
    split
    · next heq =>
      intro id hid
      rw [hserved] at hid
      exact heq ▸ (List.mem_filter.1 hid).2
    · next hne =>
      refine h.stays_of_mem place' (hold ▸ hmem) fun q hq => ?_
      obtain rfl : push = q := Option.some.inj (hpush.symm.trans hq)
      exact Ne.symm hne

/-- Where somebody stays there is a channel after the departures, with those who stay. -/
theorem restrict?_of_remains (h : d.Tracks w) {place : Place} {c : Channel}
    (hremains : d.remains place = true) (hfind : w.index.find? place.1 place.2 = some c) :
    c.restrict? (d.stays place) =
      some { c with members := c.members.filter (d.stays place) } := by
  have hstaying : c.members.filter (d.stays place) = d.staying place := by
    rw [← h.staying_eq, ChannelIndex.membersAt_of_find? hfind]
  have hne : d.staying place ≠ [] := by simpa [remains] using hremains
  exact Channel.restrict?_eq_some_iff.2 ⟨hstaying ▸ hne, rfl⟩

/-- Where nobody stays there is no channel. -/
theorem restrict?_of_not_remains (h : d.Tracks w) {place : Place} {c : Channel}
    (hremains : d.remains place = false) (hfind : w.index.find? place.1 place.2 = some c) :
    c.restrict? (d.stays place) = none := by
  have hnil : d.staying place = [] := by simpa [remains] using hremains
  refine if_pos ?_
  rw [← hnil, ← h.staying_eq, ChannelIndex.membersAt_of_find? hfind]

end Tracks

/-! ## Two passes in step -/

/-- The channels of `j` are those of `i` with the members that stay, where there are any. -/
def Leaves (i j : ChannelIndex) : Prop :=
  ∀ place : Place, j.find? place.1 place.2 =
    (i.find? place.1 place.2).bind (Channel.restrict? (d.stays place))

section Leaves

variable {d} {i j : ChannelIndex} {place : Place} {c c' : Channel}

theorem Leaves.put (h : d.Leaves i j) (hc : c.restrict? (d.stays place) = some c') :
    d.Leaves (i.put place.1 place.2 c) (j.put place.1 place.2 c') := by
  intro place'
  rw [ChannelIndex.find?_put, ChannelIndex.find?_put]
  split
  · next heq => rw [heq, Option.bind_some, hc]
  · exact h place'

theorem Leaves.put_of_nobody (h : d.Leaves i j) (hj : j.find? place.1 place.2 = none)
    (hc : c.restrict? (d.stays place) = none) : d.Leaves (i.put place.1 place.2 c) j := by
  intro place'
  rw [ChannelIndex.find?_put]
  split
  · next heq => rw [heq, Option.bind_some, hc, hj]
  · exact h place'

end Leaves

/-- The worker `v` is in the pass after the departures where `w` is in the pass without them. -/
structure Mirrors (w v : Worker) : Prop where
  leaves : d.Leaves w.index v.index
  phase : d.Matches w.phase v.phase
  sent_eq : v.counters.sent = w.counters.sent
  dropped_eq : v.counters.dropped = w.counters.dropped

/-- After a step to `r` the worker `v` can follow with a step that does the same, or wait. -/
def Follows (policy : DeliveryPolicy) (engine : Place → Evaluator) (v : Worker)
    (boxes : Mailboxes) (r : Worker.Result) : Prop :=
  (∃ v', Worker.Advance policy engine v boxes ⟨v', r.mailboxes, r.effects⟩ ∧
    d.Mirrors r.worker v') ∨
  r.mailboxes = boxes ∧ r.effects = [] ∧ d.Mirrors r.worker v

namespace Mirrors

variable {d} {policy : DeliveryPolicy} {engine : Place → Evaluator} {boxes : Mailboxes}
  {w v : Worker} {p : Pass} {q : Push} {place : Place} {todo : List Place} {c : Channel}

theorem phase_of_visiting (h : d.Mirrors w v) (hphase : w.phase = .visiting p) :
    v.phase = .visiting (d.pass p) := by
  have hmatches := h.phase
  rw [hphase] at hmatches
  generalize v.phase = phase at hmatches
  cases hmatches
  rfl

/-- Nothing moved in the next channel. -/
theorem pass (h : d.Mirrors w v) (hphase : w.phase = .visiting p)
    (htodo : p.todo = place :: todo)
    (hquiet : ∀ c, w.index.find? place.1 place.2 = some c →
      (c.last.refresh (engine place) c.context).2 = none) :
    d.Follows policy engine v boxes
      ⟨{ w with phase := .visiting { p with todo } }, boxes, []⟩ := by
  have hv := h.phase_of_visiting hphase
  have hmirrors : ∀ v' : Worker, v'.index = v.index → v'.counters = v.counters →
      v'.phase = .visiting (d.pass { p with todo }) →
        d.Mirrors { w with phase := .visiting { p with todo } } v' := by
    intro v' hindex hcounters hphase'
    exact
      { leaves := hindex ▸ h.leaves
        phase := hphase' ▸ .visiting _
        sent_eq := hcounters ▸ h.sent_eq
        dropped_eq := hcounters ▸ h.dropped_eq }
  cases hremains : d.remains place with
  | true =>
    refine .inl ⟨_, .pass hv (d.pass_todo_of_remains hremains htodo) fun c' hc' => ?_,
      hmirrors _ rfl rfl rfl⟩
    rw [h.leaves] at hc'
    obtain ⟨c, hfind, hc⟩ := Option.bind_eq_some_iff.1 hc'
    obtain ⟨-, rfl⟩ := Channel.restrict?_eq_some_iff.1 hc
    exact hquiet c hfind
  | false =>
    have hwait := d.pass_of_not_remains hremains htodo
    exact .inr ⟨rfl, rfl, hmirrors v rfl rfl (hv.trans (congrArg _ hwait.symm))⟩

/-- Something moved in the next channel. -/
theorem produce (h : d.Mirrors w v) (htracks : d.Tracks w) {last : Snapshot} {m : Message}
    (hphase : w.phase = .visiting p) (htodo : p.todo = place :: todo)
    (hfind : w.index.find? place.1 place.2 = some c)
    (hrefresh : c.last.refresh (engine place) c.context = (last, some m)) :
    d.Follows policy engine v boxes
      ⟨{ w with
          index := w.index.put place.1 place.2 { c with last }
          phase := .pushing { p with todo } ⟨place, m, [], c.members, .zero⟩ }, boxes, []⟩ := by
  have hv := h.phase_of_visiting hphase
  have hfind' := h.leaves place
  rw [hfind, Option.bind_some] at hfind'
  cases hremains : d.remains place with
  | true =>
    have htodo' := d.pass_todo_of_remains hremains htodo
    have hrestrict := htracks.restrict?_of_remains hremains hfind
    rw [hrestrict] at hfind'
    have hmirrors : d.Leaves (w.index.put place.1 place.2 { c with last }) _ :=
      h.leaves.put (Channel.restrict?_eq_some_iff.2
        ⟨(Channel.restrict?_eq_some_iff.1 hrestrict).1, rfl⟩)
    exact .inl ⟨_, .produce hv htodo' hfind' hrefresh,
      ⟨hmirrors, .pushing { p with todo } hremains, h.sent_eq, h.dropped_eq⟩⟩
  | false =>
    have hrestrict := htracks.restrict?_of_not_remains hremains hfind
    rw [hrestrict] at hfind'
    have hnobody := Channel.restrict?_eq_none_iff.1 hrestrict
    have hmirrors : d.Leaves (w.index.put place.1 place.2 { c with last }) v.index :=
      h.leaves.put_of_nobody hfind' (Channel.restrict?_eq_none_iff.2 hnobody)
    have hwait : v.phase = .visiting (d.pass { p with todo }) := by
      rw [hv, d.pass_of_not_remains hremains htodo]
    exact .inr ⟨rfl, rfl, ⟨hmirrors, hwait ▸ .alone _ hremains rfl, h.sent_eq, h.dropped_eq⟩⟩

/-- The next member is offered the message. -/
theorem serve (h : d.Mirrors w v) (htracks : d.Tracks w) (hhears : boxes.hears = d.hears)
    {id : ConnectionId} {waiting : List ConnectionId} {out : Attempt}
    (hphase : w.phase = .pushing p q) (hwaiting : q.waiting = id :: waiting)
    (hattempt : boxes.attempt policy id.number = out) (hout : out ≠ .waiting) :
    d.Follows policy engine v boxes
      ⟨{ w with
          phase := .pushing p { q with
            served := if out = .disconnected then q.served else q.served ++ [id]
            waiting
            tally := q.tally + out.tally } },
        boxes.offer policy id.number q.message, out.trace id q.message⟩ := by
  have hpush : w.phase.push? = some q := by rw [hphase]; rfl
  have hmatches := h.phase
  rw [hphase] at hmatches
  generalize hv : v.phase = phase at hmatches
  by_cases hgone : out = .disconnected
  · -- whoever is gone left before
    have hleft : d.hears id = false :=
      hhears ▸ Mailboxes.hears_eq_false_iff.2 (hattempt.trans hgone)
    have hrest := htracks.filter_waiting_of_gone hpush hwaiting hleft
    subst hgone
    refine .inr ⟨Mailboxes.offer_of_ne_sent (by simp [hattempt]) _, rfl,
      ⟨h.leaves, ?_, h.sent_eq, h.dropped_eq⟩⟩
    rw [hv]
    cases hmatches with
    | pushing _ hremains =>
      rw [Departures.push, hrest]
      exact .pushing p hremains
    | alone _ hremains htally => exact .alone p hremains htally
  · have hheard : d.hears id = true := hhears ▸ Mailboxes.hears_iff.2 (hattempt ▸ hgone)
    have hrest := htracks.filter_waiting_of_hears hpush hwaiting hheard
    cases hmatches with
    | pushing _ hremains =>
      have hserve : Worker.Advance policy engine v boxes _ := .serve hv hrest hattempt hout
      have htally : (q.tally + out.tally).heard = q.tally.heard + out.tally := by
        cases out with
        | disconnected => exact absurd rfl hgone
        | sent | dropped | waiting => rfl
      refine .inl ⟨_, hserve, ⟨h.leaves, ?_, h.sent_eq, h.dropped_eq⟩⟩
      change d.Matches _ (.pushing (d.pass p) { q with
        served := if out = .disconnected then q.served else q.served ++ [id]
        waiting := waiting.filter (d.stays q.place)
        tally := q.tally.heard + out.tally })
      rw [← htally]
      exact .pushing p hremains
    | alone _ hremains htally =>
      -- a member that hears of it would have stayed
      have hmem : id ∈ q.waiting := hwaiting ▸ List.mem_cons_self
      exact absurd (htracks.remains_of_waiting hpush hmem hheard) (by simp [hremains])

/-- The next member has no room, and both have to wait. -/
theorem stall (h : d.Mirrors w v) (htracks : d.Tracks w) (hhears : boxes.hears = d.hears)
    {id : ConnectionId} {waiting : List ConnectionId} (hphase : w.phase = .pushing p q)
    (hwaiting : q.waiting = id :: waiting)
    (hout : boxes.attempt policy id.number = .waiting) :
    d.Follows policy engine v boxes ⟨{ w with phase := .stalled p q }, boxes, []⟩ := by
  have hpush : w.phase.push? = some q := by rw [hphase]; rfl
  have hheard : d.hears id = true := by
    rw [← hhears, Mailboxes.hears_iff, hout]
    exact Attempt.noConfusion
  have hrest := htracks.filter_waiting_of_hears hpush hwaiting hheard
  have hmatches := h.phase
  rw [hphase] at hmatches
  generalize hv : v.phase = phase at hmatches
  cases hmatches with
  | pushing _ hremains =>
    have hstall : Worker.Advance policy engine v boxes _ := .stall hv hrest hout
    exact .inl ⟨_, hstall, ⟨h.leaves, .stalled p hremains hwaiting hheard, h.sent_eq, h.dropped_eq⟩⟩
  | alone _ hremains htally =>
    have hmem : id ∈ q.waiting := hwaiting ▸ List.mem_cons_self
    exact absurd (htracks.remains_of_waiting hpush hmem hheard) (by simp [hremains])

/-- There is room again. -/
theorem resume (h : d.Mirrors w v) (hphase : w.phase = .stalled p q)
    (hroom : Worker.canResume policy boxes q = true) :
    d.Follows policy engine v boxes ⟨{ w with phase := .pushing p q }, boxes, []⟩ := by
  have hmatches := h.phase
  rw [hphase] at hmatches
  generalize hv : v.phase = phase at hmatches
  cases hmatches with
  | @stalled _ _ id waiting hremains hwaiting hhears =>
    have hrest : (d.push q).waiting = id :: waiting.filter (d.stays q.place) := by
      rw [Departures.push, hwaiting, List.filter_cons_of_pos]
      rw [stays, hhears]
      rfl
    have hroom' : Worker.canResume policy boxes (d.push q) = true := by
      unfold Worker.canResume at hroom ⊢
      rw [hwaiting] at hroom
      rw [hrest]
      exact hroom
    have hresume : Worker.Advance policy engine v boxes _ := .resume hv hroom'
    exact .inl ⟨_, hresume, ⟨h.leaves, .pushing p hremains, h.sent_eq, h.dropped_eq⟩⟩

/-- Every member was offered the message. -/
theorem endPush (h : d.Mirrors w v) (htracks : d.Tracks w) (hphase : w.phase = .pushing p q)
    (hwaiting : q.waiting = []) (hfind : w.index.find? q.place.1 q.place.2 = some c) :
    d.Follows policy engine v boxes ⟨(w.endPush p q).1, boxes, (w.endPush p q).2⟩ := by
  have hpush : w.phase.push? = some q := by rw [hphase]; rfl
  have hserved := htracks.served_eq_staying hpush hwaiting
  have hstay : q.served.filter (d.stays q.place) = q.served := by
    rw [hserved, d.filter_staying]
  have hfind' := h.leaves q.place
  rw [hfind, Option.bind_some] at hfind'
  have hmatches := h.phase
  rw [hphase] at hmatches
  generalize hv : v.phase = phase at hmatches
  rw [Worker.endPush_of_find? hfind]
  cases hmatches with
  | pushing _ hremains =>
    have hne : q.served ≠ [] := by rw [hserved]; simpa [remains] using hremains
    have hrest : (d.push q).waiting = [] := by rw [Departures.push, hwaiting]; rfl
    rw [htracks.restrict?_of_remains hremains hfind] at hfind'
    have hend : Worker.Advance policy engine v boxes _ := .endPush hv hrest
    have hplace : v.index.find? (d.push q).place.1 (d.push q).place.2 = _ := hfind'
    rw [Worker.endPush_of_find? hplace] at hend
    have hleaves := h.leaves.put (c := { c with members := q.served })
      (Channel.restrict?_eq_some_iff.2 ⟨hstay.symm ▸ hne, by rw [hstay]⟩)
    exact .inl ⟨_, hend, ⟨hleaves, .visiting (Worker.passAfter p q), h.sent_eq, h.dropped_eq⟩⟩
  | alone _ hremains htally =>
    have hnil : q.served = [] := by rw [hserved]; simpa [remains] using hremains
    rw [htracks.restrict?_of_not_remains hremains hfind] at hfind'
    have hleaves := h.leaves.put_of_nobody (c := { c with members := q.served }) hfind'
      (Channel.restrict?_eq_none_iff.2 (hstay.trans hnil))
    have hpass : d.pass (Worker.passAfter p q) = d.pass p := by
      have htotal : (p.total + q.tally).heard = p.total.heard + q.tally.heard := rfl
      rw [htally] at htotal
      exact congrArg (Pass.mk _ · _) htotal
    have hreport : Worker.report q.place.1 q.tally = [] := by
      have hsent : q.tally.sent = 0 := congrArg Tally.sent htally
      have hdropped : q.tally.dropped = 0 := congrArg Tally.dropped htally
      simp [Worker.report, hsent, hdropped]
    refine .inr ⟨rfl, hreport, ⟨hleaves, ?_, h.sent_eq, h.dropped_eq⟩⟩
    rw [hv, ← hpass]
    exact .visiting (Worker.passAfter p q)

/-- **One step of the two passes**: as long as the pass goes on, the pass after the departures can
follow. -/
theorem advance (h : d.Mirrors w v) (htracks : d.Tracks w) {log : List Event}
    (hsteady : Steady w log) (hhears : boxes.hears = d.hears)
    (hmoves : ∀ place, d.moves place = (d.index.moved? engine place).isSome)
    {r : Worker.Result} (hadvance : Worker.Advance policy engine w boxes r)
    (hgoing : r.worker.phase ≠ .idle) :
    d.Tracks r.worker ∧ d.Follows policy engine v boxes r := by
  cases hadvance with
  | @pass pass place todo hphase htodo hquiet =>
    have hnone := ChannelIndex.moved?_eq_none_iff.2 hquiet
    rw [htracks.moved?_eq hphase htodo] at hnone
    have hstays : ∀ id, d.stays place id = true := fun id => by
      rw [stays, hmoves, hnone]
      exact Bool.or_true _
    exact ⟨htracks.pass hphase htodo fun id _ => hstays id, h.pass hphase htodo hquiet⟩
  | @produce pass place todo c last m hphase htodo hfind hrefresh =>
    have hmoved := ChannelIndex.moved?_of_refresh hfind hrefresh
    rw [htracks.moved?_eq hphase htodo] at hmoved
    have hmoves' : d.moves place = true := by rw [hmoves, hmoved]; rfl
    exact ⟨htracks.produce hphase htodo hfind hmoves',
      h.produce htracks hphase htodo hfind hrefresh⟩
  | endPass hphase => exact absurd (Worker.endPass_phase ..) hgoing
  | @serve pass push id waiting out hphase hwaiting hattempt hout =>
    exact ⟨htracks.serve hphase hwaiting hattempt hhears,
      h.serve htracks hhears hphase hwaiting hattempt hout⟩
  | @stall pass push id waiting hphase hwaiting hout =>
    have hpush : w.phase.push? = some push := by rw [hphase]; rfl
    exact ⟨htracks.with_push hpush rfl rfl (by rw [hphase]; rfl) rfl,
      h.stall htracks hhears hphase hwaiting hout⟩
  | @resume pass push hphase hroom =>
    have hpush : w.phase.push? = some push := by rw [hphase]; rfl
    exact ⟨htracks.with_push hpush rfl rfl (by rw [hphase]; rfl) rfl, h.resume hphase hroom⟩
  | @endPush pass push hphase hwaiting =>
    obtain ⟨c, hfind⟩ := hsteady.find?_of_push? push (by rw [hphase]; rfl)
    exact ⟨htracks.endPush hphase hwaiting hfind, h.endPush htracks hphase hwaiting hfind⟩

/-- Both passes end with the same channels: what was given up after the one was never there in the
other. -/
theorem find?_endPass (h : d.Mirrors w v) (htracks : d.Tracks w) {log : List Event}
    (hbalanced : Balanced w log) (hphase : w.phase = .visiting p) (htodo : p.todo = [])
    (place : Place) :
    (v.endPass (d.pass p)).1.index.find? place.1 place.2 =
      (w.endPass p).1.index.find? place.1 place.2 := by
  have hindex : (v.endPass (d.pass p)).1.index = v.index := Worker.endPass_index ..
  rw [hindex, Worker.endPass_index, Worker.find?_collected, h.leaves place]
  cases hfind : w.index.find? place.1 place.2 with
  | none => simp
  | some c =>
    -- only those are left who stay
    have hold : w.phase.todo = [] := by rw [hphase]; exact htodo
    have hall : c.members.filter (d.stays place) = c.members := by
      refine List.filter_eq_self.2 fun id hid => ?_
      refine htracks.stays_of_mem place (by simp [hold]) (by simp [hphase, Phase.push?]) id ?_
      rwa [ChannelIndex.membersAt_of_find? hfind]
    rw [Option.bind_some, Channel.restrict?, hall]
    by_cases hnil : c.members = []
    · have hmem := hbalanced.mem_pruned_of_empty place c hfind hnil
      rw [hphase] at hmem
      rw [if_pos hnil, if_pos ⟨hmem, List.isEmpty_iff.2 hnil⟩]
    · rw [if_neg hnil, if_neg fun hc => hnil (List.isEmpty_iff.1 hc.2)]

/-- Both passes end, and leave the same worker. -/
theorem endPass (h : d.Mirrors w v) (htracks : d.Tracks w) {log log' : List Event}
    (hsteady : Steady w log) (hsteady' : Steady v log') (hphase : w.phase = .visiting p)
    (htodo : p.todo = []) :
    Worker.Advance policy engine v boxes ⟨(w.endPass p).1, boxes, []⟩ := by
  have htodo' : (d.pass p).todo = [] := by rw [Departures.pass, htodo]; rfl
  have hadvance : Worker.Advance policy engine w boxes _ := .endPass hphase htodo
  have hadvance' : Worker.Advance policy engine v boxes _ :=
    .endPass (h.phase_of_visiting hphase) htodo'
  have hend := Worker.isPruned_endPass w p
  have hend' := Worker.isPruned_endPass v (d.pass p)
  have heq : (v.endPass (d.pass p)).1 = (w.endPass p).1 := by
    refine (hsteady'.advance hadvance').balanced.eq_of_idle (hsteady.advance hadvance).balanced
      (Worker.endPass_phase ..) (Worker.endPass_phase ..)
      (h.find?_endPass htracks hsteady.balanced hphase htodo) ?_ ?_
    · rw [hend'.sent_eq, hend.sent_eq]
      exact congrArg (· + p.total.sent) h.sent_eq
    · rw [hend'.dropped_eq, hend.dropped_eq]
      exact congrArg (· + p.total.dropped) h.dropped_eq
  rw [Worker.endPass_snd, heq] at hadvance'
  exact hadvance'

theorem phase_ne_idle (h : d.Mirrors w v) : w.phase ≠ .idle ∧ v.phase ≠ .idle := by
  have hmatches := h.phase
  generalize w.phase = phase at hmatches
  generalize v.phase = phase' at hmatches
  cases hmatches <;> exact ⟨Phase.noConfusion, Phase.noConfusion⟩

/-- **Two passes to their end**: the pass after the departures comes to the same worker and the
same mailboxes, and the pass without them does nothing more outside the worker than to report who
was found gone. -/
theorem passing {w' : Worker} {boxes' : Mailboxes} {events : List Event}
    (hpassing : Worker.Passing policy engine w boxes events w' boxes')
    (hmoves : ∀ place, d.moves place = (d.index.moved? engine place).isSome)
    {log log' : List Event} (h : d.Mirrors w v) (htracks : d.Tracks w) (hsteady : Steady w log)
    (hsteady' : Steady v log') (hhears : boxes.hears = d.hears) :
    ∃ (events' : List Event) (closed : List Effect), events = events' ++ closed.map .effect ∧
      Worker.Passing policy engine v boxes events' w' boxes' ∧
      AreClosings closed := by
  induction hpassing generalizing v log log' with
  | finished hphase => exact absurd hphase h.phase_ne_idle.1
  | @step w w' boxes boxes' r events hstep hrest ih =>
    have hadvance := Worker.advance?_eq_some_iff.1 hstep
    by_cases hidle : r.worker.phase = .idle
    · -- only the end of the pass leads between two jobs
      obtain ⟨rfl, rfl, rfl⟩ := hrest.eq_of_idle hidle
      obtain ⟨p, hphase, htodo, rfl⟩ := hadvance.exists_endPass hidle
      have hend : Worker.Advance policy engine v boxes ⟨(w.endPass p).1, boxes, []⟩ :=
        h.endPass htracks hsteady hsteady' hphase htodo
      refine ⟨[], Worker.closings p.pruned, ?_, ?_, .of_closings _⟩
      · rw [Worker.endPass_snd, List.append_nil, List.nil_append]
      · exact .step (Worker.advance?_eq_some_iff.2 hend) (.finished hidle)
    · obtain ⟨htracks', hfollows⟩ := h.advance htracks hsteady hhears hmoves hadvance hidle
      have hhears' : r.mailboxes.hears = d.hears := hadvance.hears_eq.trans hhears
      rcases hfollows with ⟨v', hadvance', hmirrors⟩ | ⟨hboxes, heffects, hmirrors⟩
      · obtain ⟨events', closed, rfl, hrest', hclosed⟩ :=
          ih hmirrors htracks' (hsteady.advance hadvance) (hsteady'.advance hadvance') hhears'
        exact ⟨r.effects.map .effect ++ events', closed, (List.append_assoc ..).symm,
          .step (Worker.advance?_eq_some_iff.2 hadvance') hrest', hclosed⟩
      · obtain ⟨events', closed, rfl, hrest', hclosed⟩ :=
          ih hmirrors htracks' (hsteady.advance hadvance) hsteady' hhears'
        rw [hboxes] at hrest'
        rw [heffects]
        exact ⟨events', closed, rfl, hrest', hclosed⟩
  | @take w w' boxes boxes' id box m rest events hphase hbox hmessages hrest ih =>
    have hhears' := boxes.hears_modify id.number (f := fun b => { b with messages := rest })
      fun box => rfl
    obtain ⟨events', closed, rfl, hrest', hclosed⟩ :=
      ih h htracks hsteady hsteady' (hhears'.trans hhears)
    exact ⟨.taken id m :: events', closed, rfl, .take h.phase_ne_idle.2 hbox hmessages hrest',
      hclosed⟩

end Mirrors

end Departures

/-! ## Who is found gone -/

/-- The members of channels with something to push that have no receiver, with where they are. -/
def ChannelIndex.departing (engine : Place → Evaluator) (i : ChannelIndex) (boxes : Mailboxes) :
    List (ConnectionId × Place) :=
  i.places.flatMap fun place =>
    if (i.moved? engine place).isSome then
      ((i.membersAt place).filter fun id => !boxes.hears id).map (·, place)
    else []

theorem ChannelIndex.mem_departing_iff {engine : Place → Evaluator} {i : ChannelIndex}
    {boxes : Mailboxes} {id : ConnectionId} {place : Place} :
    (id, place) ∈ i.departing engine boxes ↔
      id ∈ i.membersAt place ∧ (i.moved? engine place).isSome ∧ boxes.hears id = false := by
  unfold departing
  rw [List.mem_flatMap]
  constructor
  · rintro ⟨place', -, hmem⟩
    split at hmem
    · next hmoved =>
      obtain ⟨id', hid', heq⟩ := List.mem_map.1 hmem
      cases heq
      obtain ⟨hmember, hgone⟩ := List.mem_filter.1 hid'
      exact ⟨hmember, hmoved, by simpa using hgone⟩
    · cases hmem
  · rintro ⟨hmember, hmoved, hgone⟩
    obtain ⟨found, hfound⟩ := Option.isSome_iff_exists.1 hmoved
    obtain ⟨c, hfind, -⟩ := refresh_of_moved? hfound
    refine ⟨place, mem_places_of_find? hfind, ?_⟩
    rw [if_pos hmoved]
    exact List.mem_map.2 ⟨id, List.mem_filter.2 ⟨hmember, by simp [hgone]⟩, rfl⟩

/-- What a pass over these channels finds. -/
def Departures.ahead (engine : Place → Evaluator) (i : ChannelIndex) (boxes : Mailboxes) :
    Departures :=
  ⟨i, boxes.hears, fun place => (i.moved? engine place).isSome⟩

namespace Departures

variable {engine : Place → Evaluator} {boxes : Mailboxes} {w : Worker} {order : List Place}
  {gone : List (ConnectionId × Place)}

theorem tracks_beginPass (horder : order.Perm w.index.places) :
    (ahead engine w.index boxes).Tracks (w.beginPass order) where
  staying_eq _ := rfl
  find?_eq _ _ := rfl
  stays_of_mem place hmem _ id hid := by
    cases hfind : w.index.find? place.1 place.2 with
    | none =>
      change id ∈ w.index.membersAt place at hid
      rw [ChannelIndex.membersAt, hfind] at hid
      cases hid
    | some c => exact absurd (horder.mem_iff.2 (ChannelIndex.mem_places_of_find? hfind)) hmem
  todo_nodup := horder.nodup_iff.2 w.index.nodup_places
  moves_of_push? push hp := nomatch hp
  notMem_of_push? push hp := nomatch hp
  served_eq push hp := nomatch hp

theorem leaves_closeAll (hfilled : Worker.Filled w.index)
    (hgone : gone.Perm (w.index.departing engine boxes)) :
    (ahead engine w.index boxes).Leaves w.index (w.closeAll gone).1.index := by
  intro place
  rw [Worker.find?_closeAll hfilled]
  cases hfind : w.index.find? place.1 place.2 with
  | none => rfl
  | some c =>
    rw [Option.bind_some, Option.bind_some]
    refine Channel.restrict?_congr fun id hid => ?_
    rw [← ChannelIndex.membersAt_of_find? hfind] at hid
    have hmem : (id, place) ∈ gone ↔
        (w.index.moved? engine place).isSome ∧ boxes.hears id = false := by
      rw [hgone.mem_iff, ChannelIndex.mem_departing_iff, and_iff_right hid]
    change (!decide ((id, place) ∈ gone)) =
      (boxes.hears id || !(w.index.moved? engine place).isSome)
    simp [hmem, Bool.or_comm]

theorem mirrors_beginPass (hfilled : Worker.Filled w.index)
    (hgone : gone.Perm (w.index.departing engine boxes)) (order : List Place) :
    let d := ahead engine w.index boxes
    d.Mirrors (w.beginPass order) ((w.closeAll gone).1.beginPass (order.filter d.remains)) :=
  { leaves := leaves_closeAll hfilled hgone
    phase := .visiting ⟨order, .zero, []⟩
    sent_eq := (w.isClosed_closeAll gone).sent_eq
    dropped_eq := (w.isClosed_closeAll gone).dropped_eq }

/-- After the departures there are channels where somebody stayed. -/
theorem filter_remains_perm (hfilled : Worker.Filled w.index)
    (hgone : gone.Perm (w.index.departing engine boxes)) (horder : order.Perm w.index.places) :
    (order.filter (ahead engine w.index boxes).remains).Perm (w.closeAll gone).1.index.places := by
  have hnodup : order.Nodup := horder.nodup_iff.2 w.index.nodup_places
  refine (List.perm_ext_iff_of_nodup (hnodup.filter _) (ChannelIndex.nodup_places _)).2
    fun place => ?_
  rw [List.mem_filter, horder.mem_iff, ChannelIndex.mem_places_iff, ChannelIndex.mem_places_iff,
    leaves_closeAll hfilled hgone place]
  cases hfind : w.index.find? place.1 place.2 with
  | none => simp
  | some c =>
    have hmembers : w.index.membersAt place = c.members := ChannelIndex.membersAt_of_find? hfind
    simp [Channel.restrict?_eq_some_iff, remains, staying, ahead, hmembers]

end Departures

/-! ## Pruning and closing -/

/-- **Pruning is the same as closing.** The members that a pass finds gone could as well have been
closed one after the other before it, in any order. The pass over the channels that are left comes
to the same worker and the same mailboxes, and what either way does outside the worker differs only
in when the connections are reported closed. -/
theorem Run.prunes_as_closes {s : Stream} {log : List Event} (h : Run s log)
    (hphase : s.worker.phase = .idle) (policy : DeliveryPolicy) (engine : Place → Evaluator)
    {order : List Place} (horder : order.Perm s.worker.index.places)
    {gone : List (ConnectionId × Place)}
    (hgone : gone.Perm (s.worker.index.departing engine s.mailboxes)) {events : List Event}
    {w' : Worker} {boxes' : Mailboxes}
    (hpass : Worker.Passing policy engine (s.worker.beginPass order) s.mailboxes events w' boxes') :
    ∃ (order' : List Place) (events' : List Event) (closed : List Effect), order'.Sublist order ∧
      order'.Perm (s.worker.closeAll gone).1.index.places ∧
      Worker.Passing policy engine ((s.worker.closeAll gone).1.beginPass order') s.mailboxes
        events' w' boxes' ∧
      events = events' ++ closed.map .effect ∧ closed.Perm (s.worker.closeAll gone).2 := by
  have horderly := h.orderly_of_idle hphase
  have hroster := Worker.roster_of_push?_eq_none (w := s.worker) (by rw [hphase]; rfl)
  have hfilled : Worker.Filled s.worker.index := fun place c hfind =>
    ⟨horderly.members_ne_nil place c hfind, by
      rw [← ChannelIndex.membersAt_of_find? hfind, ← hroster]
      exact h.enrolled.roster_nodup place⟩
  have hclose := s.worker.isClosed_closeAll gone
  have hidle : (s.worker.closeAll gone).1.phase = .idle := hclose.phase_eq.trans hphase
  have hsteady : Steady (s.worker.beginPass order) log := .beginPass h.balanced hphase order
  have hsteady' := fun places => Steady.beginPass (h.balanced.closeAll hphase gone) hidle places
  obtain ⟨events', closed, rfl, hpass', hclosed⟩ :=
    Departures.Mirrors.passing hpass (fun _ => rfl)
      (Departures.mirrors_beginPass hfilled hgone order) (Departures.tracks_beginPass horder)
      hsteady (hsteady' _) rfl
  refine ⟨_, events', closed, List.filter_sublist,
    Departures.filter_remains_perm hfilled hgone horder, hpass', rfl,
    hclosed.perm hclose.closings fun p => ?_⟩
  have hover : w'.phase = .idle := hpass.phase_eq
  have hbooks := (hpass.steady hsteady).balanced.reports_eq (by simp [hover]) p
  have hbooks' := (hpass'.steady (hsteady' _)).balanced.reports_eq (by simp [hover]) p
  simp only [openedIn_append, closedIn_append, hclosed.openedIn_eq, hclose.closings.openedIn_eq]
    at hbooks hbooks'
  omega

/-- One of two members of a channel and the only member of another are gone when something moves in
both channels. -/
theorem prunes_as_closes_of_two_channels :
    ∃ s log engine gone events w' boxes', Run s log ∧ s.worker.phase = .idle ∧
      (engine = fun _ => (trialEngine true).evaluator) ∧
      gone = [(⟨0, 0⟩, (.flag "f", 0)), (⟨0, 2⟩, (.all, 0))] ∧
      gone.Perm (s.worker.index.departing engine s.mailboxes) ∧
      Worker.Passing .dropNewest engine (s.worker.beginPass s.worker.index.places) s.mailboxes
        events w' boxes' ∧
      ∃ (order' : List Place) (events' : List Event) (closed : List Effect),
        order'.Sublist s.worker.index.places ∧
        order'.Perm (s.worker.closeAll gone).1.index.places ∧
        Worker.Passing .dropNewest engine ((s.worker.closeAll gone).1.beginPass order')
          s.mailboxes events' w' boxes' ∧
        events = events' ++ closed.map .effect ∧ closed.Perm (s.worker.closeAll gone).2 := by
  let engine : Place → Evaluator := fun _ => (trialEngine true).evaluator
  let e := trialEngine false
  let acts : List Stream.Act :=
    [.connect (.flag "f") none, .connect (.flag "f") none, .connect .all none, .work e, .work e,
      .work e, .leave 0, .leave 2]
  let last := ((trialStream .dropNewest).acts? acts).get (by decide)
  have hrun : Run last.1 ([] ++ last.2) :=
    (run_trialStream .dropNewest).acts (Option.some_get _).symm
  have hidle : last.1.worker.phase = .idle := by rfl
  have hgone : [(⟨0, 0⟩, (.flag "f", 0)), (⟨0, 2⟩, (.all, 0))].Perm
      (last.1.worker.index.departing engine last.1.mailboxes) := .of_eq (by decide)
  obtain ⟨site, hparted⟩ := hrun.parted hidle
  have hcomes : Worker.ComesTo .dropNewest engine
      (last.1.worker.beginPass last.1.worker.index.places) last.1.mailboxes _ :=
    Sweep.comesTo_result hparted last.1.mailboxes last.1.worker.counters _
  have hpass := (hcomes _ _ _).2 ⟨rfl, rfl, rfl⟩
  exact ⟨last.1, last.2, engine, _, _, _, _, hrun, hidle, rfl, rfl, hgone, hpass,
    hrun.prunes_as_closes hidle .dropNewest engine (.refl _) hgone hpass⟩

end FlagFanout
