import FlagFanout.Proofs.Stream.Orderly
import FlagFanout.Proofs.Stream.Passing
import FlagFanout.Proofs.Stream.Refresh

/-!
# The order in which channels are visited

Under `DeliveryPolicy.dropNewest` the worker never waits, so a pass that nobody disturbs runs to its
end by itself. `Sweep` is what such a pass carries from one channel to the next, and
`Sweep.visitAll` is the pass as a function of the places that it visits; `Worker.Passing.of_sweep`
says that the worker does just that.

A connection is a member of one channel only, so every channel has mailboxes of its own (`Parted`)
and two visits can be made in either order (`Sweep.visit_comm`). Hence the order of a pass makes no
difference (`Run.order_immaterial`), and no more does the order in which a scan of all flags looks
at them (`Snapshot.scan_perm`).
-/

namespace FlagFanout

/-! ## One message to several connections -/

namespace Mailboxes

/-- The mailboxes after a message was offered to several connections. -/
def offerAll (b : Mailboxes) (m : Message) (ids : List ConnectionId) : Mailboxes :=
  ids.foldl (fun b id => b.offer .dropNewest id.number m) b

/-- A tally with what becomes of a message that is offered to several connections. -/
def tallyAll (b : Mailboxes) (t : Tally) (ids : List ConnectionId) : Tally :=
  ids.foldl (fun t id => t + (b.attempt .dropNewest id.number).tally) t

/-- What is done outside the worker when a message is offered to several connections. -/
def traceAll (b : Mailboxes) (m : Message) (ids : List ConnectionId) : List Effect :=
  ids.flatMap fun id => (b.attempt .dropNewest id.number).trace id m

section OfferAll

variable {b b' : Mailboxes} {m : Message} {ids : List ConnectionId}

@[simp] theorem hears_offerAll : (b.offerAll m ids).hears = b.hears := by
  induction ids generalizing b with
  | nil => rfl
  | cons id rest ih => exact ih.trans (hears_offer ..)

theorem get?_offer_of_ne {policy : DeliveryPolicy} {n k : Nat} (h : k ≠ n) :
    (b.offer policy n m).get? k = b.get? k := by
  rw [offer, get?_modify, if_neg h]

/-- Whoever is not offered the message keeps the mailbox as it is. -/
theorem get?_offerAll_of_notMem {k : Nat} (h : ∀ id ∈ ids, id.number ≠ k) :
    (b.offerAll m ids).get? k = b.get? k := by
  induction ids generalizing b with
  | nil => rfl
  | cons id rest ih =>
    refine (ih fun id' hid' => h id' (List.mem_cons_of_mem _ hid')).trans ?_
    exact get?_offer_of_ne (h id List.mem_cons_self).symm

/-- What becomes of a mailbox depends on no other. -/
theorem get?_offerAll_congr {k : Nat} (h : b.get? k = b'.get? k) :
    (b.offerAll m ids).get? k = (b'.offerAll m ids).get? k := by
  induction ids generalizing b b' with
  | nil => exact h
  | cons id rest ih =>
    refine ih ((get?_modify ..).trans ?_)
    rw [h]
    exact (get?_modify ..).symm

theorem attempt_congr {policy : DeliveryPolicy} {k : Nat} (h : b.get? k = b'.get? k) :
    b.attempt policy k = b'.attempt policy k := by
  rw [attempt, h, attempt]

theorem tallyAll_congr {t : Tally} (h : ∀ id ∈ ids, b.get? id.number = b'.get? id.number) :
    b.tallyAll t ids = b'.tallyAll t ids :=
  List.foldl_ext _ _ _ fun t id hid => by rw [attempt_congr (h id hid)]

theorem traceAll_congr (h : ∀ id ∈ ids, b.get? id.number = b'.get? id.number) :
    b.traceAll m ids = b'.traceAll m ids :=
  List.flatMap_congr fun id hid => by rw [attempt_congr (h id hid)]

/-- Messages are offered to connections with different mailboxes in either order. -/
theorem offerAll_comm {m' : Message} {ids' : List ConnectionId}
    (h : ∀ id ∈ ids, ∀ id' ∈ ids', id.number ≠ id'.number) :
    (b.offerAll m ids).offerAll m' ids' = (b.offerAll m' ids').offerAll m ids := by
  refine ext_get? fun k => ?_
  by_cases hk : ∃ id ∈ ids, id.number = k
  · obtain ⟨id, hid, rfl⟩ := hk
    have hother : ∀ id' ∈ ids', id'.number ≠ id.number := fun id' hid' => (h id hid id' hid').symm
    rw [get?_offerAll_of_notMem hother]
    exact get?_offerAll_congr (get?_offerAll_of_notMem hother).symm
  · have hother : ∀ id ∈ ids, id.number ≠ k := fun id hid heq => hk ⟨id, hid, heq⟩
    rw [get?_offerAll_of_notMem hother]
    exact get?_offerAll_congr (get?_offerAll_of_notMem hother)

end OfferAll

end Mailboxes

/-! ## A pass as a function -/

/-- What a pass carries from one channel to the next. -/
structure Sweep where
  index : ChannelIndex
  boxes : Mailboxes
  total : Tally
  pruned : List (Place × Nat)
  effects : List Effect

namespace Sweep

/-- A message was pushed to the members of a channel. -/
def push (σ : Sweep) (place : Place) (c : Channel) (m : Message) : Sweep :=
  let t := σ.boxes.tallyAll .zero c.members
  { index := σ.index.put place.1 place.2 { c with members := c.members.filter σ.boxes.hears }
    boxes := σ.boxes.offerAll m c.members
    total := σ.total + t
    pruned := σ.pruned ++ if 0 < t.disconnected then [(place, t.disconnected)] else []
    effects := σ.effects ++ (σ.boxes.traceAll m c.members ++ Worker.report place.1 t) }

/-- The channel at a place was visited. -/
def visit (engine : Place → Evaluator) (σ : Sweep) (place : Place) : Sweep :=
  match σ.index.moved? engine place with
  | none => σ
  | some (c, m) => σ.push place c m

/-- The channels at some places were visited. -/
def visitAll (engine : Place → Evaluator) (σ : Sweep) (places : List Place) : Sweep :=
  places.foldl (visit engine) σ

/-- The worker that has visited so much. -/
def worker (σ : Sweep) (counters : Counters) (todo : List Place) : Worker :=
  ⟨σ.index, counters, .visiting ⟨todo, σ.total, σ.pruned⟩⟩

end Sweep

/-! ## Channels with mailboxes of their own -/

/-- No two members share a mailbox: `site` tells of each mailbox in which channel its connection
is. There are no empty buckets either. -/
structure Parted (site : Nat → Place) (i : ChannelIndex) : Prop where
  tight : i.Tight
  nodup : ∀ place, ((i.membersAt place).map (·.number)).Nodup
  site_eq : ∀ place, ∀ id ∈ i.membersAt place, site id.number = place

namespace Parted

variable {site : Nat → Place} {i : ChannelIndex} {place : Place} {c : Channel}

/-- Members may be left out. -/
theorem put (h : Parted site i) (hmembers : c.members.Sublist (i.membersAt place)) :
    Parted site (i.put place.1 place.2 c) where
  tight := h.tight.put place c
  nodup place' := by
    rw [ChannelIndex.membersAt_put]
    split
    · exact (h.nodup place).sublist (hmembers.map _)
    · exact h.nodup place'
  site_eq place' id hid := by
    rw [ChannelIndex.membersAt_put] at hid
    split at hid
    · next heq => exact heq ▸ h.site_eq place id (hmembers.subset hid)
    · exact h.site_eq place' id hid

theorem number_ne (h : Parted site i) {place' : Place} (hne : place ≠ place')
    {id id' : ConnectionId} (hid : id ∈ i.membersAt place) (hid' : id' ∈ i.membersAt place') :
    id.number ≠ id'.number := fun heq =>
  hne ((h.site_eq place id hid).symm.trans (heq ▸ h.site_eq place' id' hid'))

end Parted

/-- Between two jobs every channel has mailboxes of its own. -/
theorem Run.parted {s : Stream} {log : List Event} (h : Run s log)
    (hphase : s.worker.phase = .idle) : ∃ site, Parted site s.worker.index := by
  have hrunning : s.worker.phase ≠ .stopped := by simp [hphase]
  have hroster := Worker.roster_of_push?_eq_none (w := s.worker) (by rw [hphase]; rfl)
  have hknown : ∀ {place id}, id ∈ s.worker.index.membersAt place →
      id = ⟨s.serial, id.number⟩ := by
    intro place id hid
    have hstream := (h.enrolled.known_of_mem hrunning (hroster place ▸ hid)).1
    rw [← hstream]
  refine ⟨fun n => ((ledger ⟨s.serial, n⟩ log).place).getD (.all, 0),
    { tight := h.balanced.tight
      nodup := fun place => ?_
      site_eq := fun place id hid => ?_ }⟩
  · have hnodup := hroster place ▸ h.enrolled.roster_nodup place
    refine List.Nodup.map_on (fun id hid id' hid' heq => ?_) hnodup
    rw [hknown hid, hknown hid', heq]
  · rw [← hknown hid, (h.enrolled.mem_membersAt_iff hphase place id).1 hid, Option.getD_some]

/-! ## Two visits in either order -/

theorem Tally.add_right_comm (s t u : Tally) : s + t + u = s + u + t := by
  change Tally.mk _ _ _ = Tally.mk _ _ _
  congr 1 <;> exact Nat.add_right_comm ..

namespace Sweep

variable {engine : Place → Evaluator} {site : Nat → Place} {σ τ υ : Sweep}

/-- Two passes came to the same, up to the order in which they did it. -/
structure Same (σ τ : Sweep) : Prop where
  index_eq : τ.index = σ.index
  boxes_eq : τ.boxes = σ.boxes
  total_eq : τ.total = σ.total
  pruned_perm : τ.pruned.Perm σ.pruned
  effects_perm : τ.effects.Perm σ.effects

theorem Same.refl (σ : Sweep) : Same σ σ := ⟨rfl, rfl, rfl, .refl _, .refl _⟩

theorem Same.trans (h : Same σ τ) (h' : Same τ υ) : Same σ υ where
  index_eq := h'.index_eq.trans h.index_eq
  boxes_eq := h'.boxes_eq.trans h.boxes_eq
  total_eq := h'.total_eq.trans h.total_eq
  pruned_perm := h'.pruned_perm.trans h.pruned_perm
  effects_perm := h'.effects_perm.trans h.effects_perm

theorem Same.push (h : Same σ τ) (place : Place) (c : Channel) (m : Message) :
    Same (σ.push place c m) (τ.push place c m) := by
  obtain ⟨index, boxes, total, pruned, effects⟩ := σ
  obtain ⟨index', boxes', total', pruned', effects'⟩ := τ
  obtain ⟨rfl, rfl, rfl, hpruned, heffects⟩ := h
  exact ⟨rfl, rfl, rfl, hpruned.append_right _, heffects.append_right _⟩

theorem Same.visit (h : Same σ τ) (place : Place) :
    Same (σ.visit engine place) (τ.visit engine place) := by
  unfold Sweep.visit
  rw [h.index_eq]
  cases σ.index.moved? engine place with
  | none => exact h
  | some found => exact h.push place found.1 found.2

theorem Same.visitAll (h : Same σ τ) (places : List Place) :
    Same (σ.visitAll engine places) (τ.visitAll engine places) := by
  induction places generalizing σ τ with
  | nil => exact h
  | cons place rest ih => exact ih (h.visit place)

/-- Messages are pushed to two channels in either order. -/
theorem push_comm (htight : σ.index.Tight) {place place' : Place} (hne : place ≠ place')
    {c c' : Channel} (hapart : ∀ id ∈ c.members, ∀ id' ∈ c'.members, id.number ≠ id'.number)
    (m m' : Message) :
    Same ((σ.push place c m).push place' c' m') ((σ.push place' c' m').push place c m) := by
  have hleft : ∀ id' ∈ c'.members,
      (σ.boxes.offerAll m c.members).get? id'.number = σ.boxes.get? id'.number := fun id' hid' =>
    Mailboxes.get?_offerAll_of_notMem fun id hid => hapart id hid id' hid'
  have hright : ∀ id ∈ c.members,
      (σ.boxes.offerAll m' c'.members).get? id.number = σ.boxes.get? id.number := fun id hid =>
    Mailboxes.get?_offerAll_of_notMem fun id' hid' => (hapart id hid id' hid').symm
  have hcomm : ∀ {α : Type} (l a b : List α), (l ++ a ++ b).Perm (l ++ b ++ a) := by
    intro α l a b
    rw [List.append_assoc, List.append_assoc]
    exact List.perm_append_comm.append_left l
  simp only [push, Mailboxes.hears_offerAll, Mailboxes.tallyAll_congr hleft,
    Mailboxes.tallyAll_congr hright, Mailboxes.traceAll_congr hleft,
    Mailboxes.traceAll_congr hright]
  exact
    { index_eq := htight.put_comm hne.symm _ _
      boxes_eq := Mailboxes.offerAll_comm fun id' hid' id hid => (hapart id hid id' hid').symm
      total_eq := Tally.add_right_comm ..
      pruned_perm := hcomm ..
      effects_perm := hcomm .. }

/-- A visit leaves out members and puts none in. -/
theorem parted_visit (h : Parted site σ.index) (place : Place) :
    Parted site (σ.visit engine place).index := by
  unfold visit
  cases hmoved : σ.index.moved? engine place with
  | none => exact h
  | some found =>
    refine h.put ?_
    rw [← ChannelIndex.members_of_moved? hmoved]
    exact List.filter_sublist

/-- **Two channels are visited in either order.** -/
theorem visit_comm (h : Parted site σ.index) (place place' : Place) :
    Same ((σ.visit engine place).visit engine place')
      ((σ.visit engine place').visit engine place) := by
  by_cases hne : place = place'
  · rw [hne]
    exact .refl _
  unfold visit
  cases hmoved : σ.index.moved? engine place with
  | none =>
    cases hmoved' : σ.index.moved? engine place' with
    | none =>
      simp only [hmoved]
      exact .refl _
    | some found' =>
      have hstill : (σ.push place' found'.1 found'.2).index.moved? engine place = none :=
        (ChannelIndex.moved?_put_of_ne _ hne _).trans hmoved
      simp only [hstill]
      exact .refl _
  | some found =>
    have hstill' : (σ.push place found.1 found.2).index.moved? engine place' =
        σ.index.moved? engine place' := ChannelIndex.moved?_put_of_ne _ (Ne.symm hne) _
    cases hmoved' : σ.index.moved? engine place' with
    | none =>
      simp only [hstill', hmoved, hmoved']
      exact .refl _
    | some found' =>
      have hstill : (σ.push place' found'.1 found'.2).index.moved? engine place = some found :=
        (ChannelIndex.moved?_put_of_ne _ hne _).trans hmoved
      simp only [hstill', hstill, hmoved']
      refine push_comm h.tight hne (fun id hid id' hid' => ?_) _ _
      rw [ChannelIndex.members_of_moved? hmoved] at hid
      rw [ChannelIndex.members_of_moved? hmoved'] at hid'
      exact h.number_ne hne hid hid'

/-- **The order of the visits makes no difference.** -/
theorem same_of_perm {places places' : List Place} (hperm : places.Perm places')
    (h : Parted site σ.index) : Same (σ.visitAll engine places) (σ.visitAll engine places') := by
  induction hperm generalizing σ with
  | nil => exact .refl σ
  | cons place _ ih => exact ih (parted_visit h place)
  | swap place place' rest => exact (visit_comm h place' place).visitAll rest
  | trans _ _ ih ih' => exact (ih h).trans (ih' h)

end Sweep

/-! ## The pass of a worker -/

namespace Worker.Passing

variable {engine : Place → Evaluator} {w w' : Worker} {boxes boxes' : Mailboxes}
  {fx : List Effect}

theorem of_step {policy : DeliveryPolicy} {r : Result} (hstep : Advance policy engine w boxes r)
    (hrest : Passing policy engine r.worker r.mailboxes (fx.map .effect) w' boxes') :
    Passing policy engine w boxes ((r.effects ++ fx).map .effect) w' boxes' := by
  rw [List.map_append]
  exact .step (advance?_eq_some_iff.2 hstep) hrest

/-- All members that are left are offered what is pushed. -/
theorem of_push {pass : Pass} {place : Place} {m : Message} {served waiting : List ConnectionId}
    {t : Tally} (hnodup : (waiting.map (·.number)).Nodup)
    (hrest : Passing .dropNewest engine
      { w with
        phase := .pushing pass
          ⟨place, m, served ++ waiting.filter boxes.hears, [], boxes.tallyAll t waiting⟩ }
      (boxes.offerAll m waiting) (fx.map .effect) w' boxes') :
    Passing .dropNewest engine
      { w with phase := .pushing pass ⟨place, m, served, waiting, t⟩ } boxes
      ((boxes.traceAll m waiting ++ fx).map .effect) w' boxes' := by
  induction waiting generalizing boxes served t with
  | nil => rwa [List.filter_nil, List.append_nil] at hrest
  | cons id rest ih =>
    obtain ⟨hid, hnodup⟩ := List.nodup_cons.1 hnodup
    set out := boxes.attempt .dropNewest id.number with hout
    have hstep : Advance .dropNewest engine
        { w with phase := .pushing pass ⟨place, m, served, id :: rest, t⟩ } boxes _ :=
      .serve rfl rfl hout.symm (boxes.attempt_dropNewest_ne_waiting id.number)
    -- the offer to the first member leaves the mailboxes of the others alone
    have hsame : ∀ id' ∈ rest, (boxes.offer .dropNewest id.number m).get? id'.number =
        boxes.get? id'.number := fun id' hid' =>
      Mailboxes.get?_offer_of_ne fun heq => hid (List.mem_map.2 ⟨id', hid', heq⟩)
    have hserved : (if out = .disconnected then served else served ++ [id]) ++
        rest.filter (boxes.offer .dropNewest id.number m).hears =
          served ++ (id :: rest).filter boxes.hears := by
      rw [Mailboxes.hears_offer]
      by_cases hgone : out = .disconnected
      · rw [if_pos hgone, List.filter_cons_of_neg]
        rw [Mailboxes.hears_eq_false_iff.2 hgone]
        exact Bool.false_ne_true
      · rw [if_neg hgone, List.filter_cons_of_pos, List.append_assoc]
        · rfl
        · exact Mailboxes.hears_iff.2 hgone
    have hlog : boxes.traceAll m (id :: rest) ++ fx =
        out.trace id m ++ ((boxes.offer .dropNewest id.number m).traceAll m rest ++ fx) := by
      rw [Mailboxes.traceAll_congr hsame, ← List.append_assoc]
      rfl
    rw [hlog]
    refine of_step hstep (ih hnodup ?_)
    rw [hserved, Mailboxes.tallyAll_congr hsame]
    exact hrest

/-- A message is pushed to the members of the next channel. -/
theorem of_moved {site : Nat → Place} {σ : Sweep} (hparted : Parted site σ.index)
    {counters : Counters} {place : Place} {todo : List Place} {c : Channel} {m : Message}
    (hmoved : σ.index.moved? engine place = some (c, m))
    (hrest : Passing .dropNewest engine ((σ.push place c m).worker counters todo)
      (σ.push place c m).boxes (fx.map .effect) w' boxes') :
    Passing .dropNewest engine (σ.worker counters (place :: todo)) σ.boxes
      ((σ.boxes.traceAll m c.members ++
        (report place.1 (σ.boxes.tallyAll .zero c.members) ++ fx)).map .effect) w' boxes' := by
  have hmembers := ChannelIndex.members_of_moved? hmoved
  obtain ⟨c₀, hfind, hrefresh, hc⟩ := ChannelIndex.refresh_of_moved? hmoved
  have hc₀ : c₀.members = c.members := by rw [hc]
  -- what the worker holds once every member was offered the message
  let pushed : Worker :=
    ⟨σ.index.put place.1 place.2 c, counters, .pushing ⟨todo, σ.total, σ.pruned⟩
      ⟨place, m, c.members.filter σ.boxes.hears, [], σ.boxes.tallyAll .zero c.members⟩⟩
  have hended : Passing .dropNewest engine pushed (σ.boxes.offerAll m c.members)
      ((report place.1 (σ.boxes.tallyAll .zero c.members) ++ fx).map .effect) w' boxes' := by
    have hend : Advance .dropNewest engine pushed (σ.boxes.offerAll m c.members) _ :=
      .endPush rfl rfl
    refine of_step hend ?_
    rw [endPush_of_find? (ChannelIndex.find?_put_self ..)]
    have hput := hparted.tight.put_put place c
      { c with members := c.members.filter σ.boxes.hears }
    change Passing .dropNewest engine ⟨(σ.index.put place.1 place.2 c).put place.1 place.2 _,
      counters, _⟩ _ _ _ _
    rw [hput]
    exact hrest
  have hproduce : Advance .dropNewest engine (σ.worker counters (place :: todo)) σ.boxes _ :=
    .produce rfl rfl hfind hrefresh
  rw [← hc, hc₀] at hproduce
  have hserved : Passing .dropNewest engine
      { pushed with phase := .pushing ⟨todo, σ.total, σ.pruned⟩ ⟨place, m, [], c.members, .zero⟩ }
      σ.boxes _ w' boxes' := of_push (hmembers ▸ hparted.nodup place) hended
  exact of_step hproduce hserved

/-- The next channel is visited. -/
theorem of_visit {site : Nat → Place} {σ : Sweep} (hparted : Parted site σ.index)
    {counters : Counters} {place : Place} {todo : List Place}
    (hrest : Passing .dropNewest engine ((σ.visit engine place).worker counters todo)
      (σ.visit engine place).boxes (fx.map .effect) w' boxes') :
    ∃ visited, (σ.visit engine place).effects = σ.effects ++ visited ∧
      Passing .dropNewest engine (σ.worker counters (place :: todo)) σ.boxes
        ((visited ++ fx).map .effect) w' boxes' := by
  cases hmoved : σ.index.moved? engine place with
  | none =>
    have hvisit : σ.visit engine place = σ := by simp only [Sweep.visit, hmoved]
    rw [hvisit] at hrest ⊢
    have hpass : Advance .dropNewest engine (σ.worker counters (place :: todo)) σ.boxes _ :=
      .pass rfl rfl (ChannelIndex.moved?_eq_none_iff.1 hmoved)
    exact ⟨[], (List.append_nil _).symm, of_step hpass hrest⟩
  | some found =>
    have hvisit : σ.visit engine place = σ.push place found.1 found.2 := by
      simp only [Sweep.visit, hmoved]
    rw [hvisit] at hrest ⊢
    refine ⟨_, rfl, ?_⟩
    rw [List.append_assoc]
    exact of_moved hparted hmoved hrest

/-- **Undisturbed, the worker makes its way over all channels.** -/
theorem of_sweep {site : Nat → Place} {σ : Sweep} (hparted : Parted site σ.index)
    (counters : Counters) (places : List Place) :
    let τ := σ.visitAll engine places
    ∃ visited, τ.effects = σ.effects ++ visited ∧
      Passing .dropNewest engine (σ.worker counters places) σ.boxes
        ((visited ++ closings τ.pruned).map .effect)
        ((τ.worker counters []).endPass ⟨[], τ.total, τ.pruned⟩).1 τ.boxes := by
  induction places generalizing σ with
  | nil =>
    refine ⟨[], (List.append_nil _).symm, ?_⟩
    have hend : Advance .dropNewest engine (σ.worker counters []) σ.boxes _ := .endPass rfl rfl
    have hover : Passing .dropNewest engine
        ((σ.worker counters []).endPass ⟨[], σ.total, σ.pruned⟩).1 σ.boxes
        ([].map Event.effect) _ _ := .finished (endPass_phase ..)
    have hpassing := of_step hend hover
    rwa [endPass_snd, List.append_nil] at hpassing
  | cons place rest ih =>
    obtain ⟨later, hlater, hpassing⟩ := ih (Sweep.parted_visit hparted place)
    obtain ⟨visited, hvisited, hpassing⟩ := of_visit hparted hpassing
    refine ⟨visited ++ later, ?_, ?_⟩
    · exact hlater.trans (by rw [hvisited, List.append_assoc])
    · rw [List.append_assoc]
      exact hpassing

end Worker.Passing

/-! ## One outcome, whatever the order -/

/-- Left to itself, a pass comes to `r` and to nothing else. -/
def Worker.ComesTo (policy : DeliveryPolicy) (engine : Place → Evaluator) (w : Worker)
    (boxes : Mailboxes) (r : Result) : Prop :=
  ∀ fx w' boxes', Passing policy engine w boxes (fx.map .effect) w' boxes' ↔
    fx = r.effects ∧ w' = r.worker ∧ boxes' = r.mailboxes

namespace Sweep

variable {engine : Place → Evaluator} {site : Nat → Place}

/-- A pass that visited no channel yet. -/
def fresh (i : ChannelIndex) (boxes : Mailboxes) : Sweep := ⟨i, boxes, .zero, [], []⟩

/-- What the worker comes to once all channels were visited. -/
def result (σ : Sweep) (counters : Counters) : Worker.Result :=
  ⟨((σ.worker counters []).endPass ⟨[], σ.total, σ.pruned⟩).1, σ.boxes,
    σ.effects ++ Worker.closings σ.pruned⟩

theorem comesTo_result {i : ChannelIndex} (hparted : Parted site i) (boxes : Mailboxes)
    (counters : Counters) (places : List Place) :
    Worker.ComesTo .dropNewest engine ((fresh i boxes).worker counters places) boxes
      (((fresh i boxes).visitAll engine places).result counters) := by
  intro fx w' boxes'
  obtain ⟨visited, hvisited, hpassing⟩ :=
    Worker.Passing.of_sweep (σ := fresh i boxes) hparted counters places
  obtain rfl : ((fresh i boxes).visitAll engine places).effects = visited := hvisited
  constructor
  · intro h
    obtain ⟨hw, hboxes, hfx⟩ := hpassing.unique h
    exact ⟨hfx, hw, hboxes⟩
  · rintro ⟨rfl, rfl, rfl⟩
    exact hpassing

/-- Two passes that came to the same end the same. -/
theorem Same.result {σ τ : Sweep} (h : Same σ τ) {counters : Counters} {log log' : List Event}
    (hbalanced : Balanced (σ.result counters).worker log)
    (hbalanced' : Balanced (τ.result counters).worker log') :
    (τ.result counters).worker = (σ.result counters).worker ∧
      (τ.result counters).effects.Perm (σ.result counters).effects := by
  have hfigures : ∀ υ : Sweep,
      (υ.result counters).worker.counters.sent = counters.sent + υ.total.sent ∧
        (υ.result counters).worker.counters.dropped = counters.dropped + υ.total.dropped :=
    fun υ =>
      have hend := Worker.isPruned_endPass (υ.worker counters []) ⟨[], υ.total, υ.pruned⟩
      ⟨hend.sent_eq, hend.dropped_eq⟩
  refine ⟨hbalanced'.eq_of_idle hbalanced (Worker.endPass_phase ..) (Worker.endPass_phase ..)
    (fun place => ?_) ?_ ?_, ?_⟩
  · have hpruned : place ∈ τ.pruned.map (·.1) ↔ place ∈ σ.pruned.map (·.1) :=
      (h.pruned_perm.map _).mem_iff
    have hindex : (τ.worker counters []).index = (σ.worker counters []).index := h.index_eq
    unfold Sweep.result
    rw [Worker.endPass_index, Worker.endPass_index, hindex, Worker.find?_collected,
      Worker.find?_collected]
    exact if_congr (and_congr_left fun _ => hpruned) rfl rfl
  · rw [(hfigures τ).1, (hfigures σ).1, h.total_eq]
  · rw [(hfigures τ).2, (hfigures σ).2, h.total_eq]
  · exact h.effects_perm.append (h.pruned_perm.flatMap_right _)

end Sweep

/-- A scan finds the same in whatever order it looks at the flags. -/
theorem Snapshot.scan_perm (last : KeyMap String Payload)
    {results results' : List (String × Except FlagError Evaluation)}
    (hkeys : results.Pairwise fun e f => e.1 ≠ f.1) (hperm : results'.Perm results) :
    scan last results' = scan last results := by
  have hkeys' : results'.Pairwise fun e f => e.1 ≠ f.1 :=
    (hperm.pairwise_iff fun hne => hne.symm).2 hkeys
  have hlookup : ∀ key, KeyMap.lookup key results' = KeyMap.lookup key results := fun key =>
    Option.ext fun result => by
      rw [KeyMap.lookup_eq_some_iff_mem hkeys', KeyMap.lookup_eq_some_iff_mem hkeys,
        hperm.mem_iff]
  have hscan := get?_foldl_scanKey hkeys ⟨last, .empty⟩
  have hscan' := get?_foldl_scanKey hkeys' ⟨last, .empty⟩
  have hlast : (scan last results').last = (scan last results).last :=
    KeyMap.ext_get? fun key => by
      refine (hscan' key).1.trans ?_
      rw [hlookup]
      exact (hscan key).1.symm
  have hchanged : (scan last results').changed = (scan last results).changed :=
    KeyMap.ext_get? fun key => by
      refine (hscan' key).2.trans ?_
      rw [hlookup]
      exact (hscan key).2.symm
  exact congrArg₂ Scan.mk hlast hchanged

/-- **The order of a pass makes no difference**: under `DeliveryPolicy.dropNewest` it comes to the
same worker and the same mailboxes, and does the same outside the worker, in whatever order it
visits the channels and in whatever order a scan of all flags looks at them. -/
theorem Run.order_immaterial {s : Stream} {log : List Event} (h : Run s log)
    (hphase : s.worker.phase = .idle) (hpolicy : s.config.delivery = .dropNewest)
    (engine : Place → Evaluator) {order order' : List Place}
    (horder : order.Perm s.worker.index.places) (horder' : order'.Perm s.worker.index.places) :
    (∃ r r',
      Worker.ComesTo s.config.delivery engine (s.worker.beginPass order) s.mailboxes r ∧
      Worker.ComesTo s.config.delivery engine (s.worker.beginPass order') s.mailboxes r' ∧
      r'.worker = r.worker ∧ r'.mailboxes = r.mailboxes ∧ r'.effects.Perm r.effects) ∧
    ∀ (place : Place) (context : Option Context) (last : KeyMap String Payload)
      (results : List (String × Except FlagError Evaluation)),
      results.Perm ((engine place).evaluateAll context).toList →
        Snapshot.scan last results =
          Snapshot.scan last ((engine place).evaluateAll context).toList := by
  refine ⟨?_, fun place context last results hperm =>
    Snapshot.scan_perm last (KeyMap.keys_ne _) hperm⟩
  rw [hpolicy]
  obtain ⟨site, hparted⟩ := h.parted hphase
  let σ := Sweep.fresh s.worker.index s.mailboxes
  have hcomes : ∀ order, Worker.ComesTo .dropNewest engine (s.worker.beginPass order) s.mailboxes
      ((σ.visitAll engine order).result s.worker.counters) := fun order =>
    Sweep.comesTo_result hparted s.mailboxes s.worker.counters order
  have hbalanced : ∀ order, ∃ log',
      Balanced ((σ.visitAll engine order).result s.worker.counters).worker log' := fun order =>
    ⟨_, (((hcomes order _ _ _).2 ⟨rfl, rfl, rfl⟩).steady
      (.beginPass h.balanced hphase order)).balanced⟩
  obtain ⟨_, hbefore⟩ := hbalanced order
  obtain ⟨_, hafter⟩ := hbalanced order'
  have hsame : Sweep.Same (σ.visitAll engine order) (σ.visitAll engine order') :=
    Sweep.same_of_perm (horder.trans horder'.symm) hparted
  obtain ⟨hworker, heffects⟩ := hsame.result hbefore hafter
  exact ⟨_, _, hcomes order, hcomes order', hworker, hsame.boxes_eq, heffects⟩

/-- Something moved in two channels, of which one has a member whose mailbox is full and the other
one that is gone; they are visited in either order. -/
theorem order_immaterial_of_two_channels :
    ∃ s log, Run s log ∧ s.worker.phase = .idle ∧ s.config.delivery = .dropNewest ∧
      s.worker.index.places = [(.flag "f", 0), (.all, 0)] ∧
      s.mailboxes.attempt .dropNewest 0 = .dropped ∧
      s.mailboxes.attempt .dropNewest 1 = .disconnected ∧
      ∃ r r',
        Worker.ComesTo s.config.delivery (fun _ => (trialEngine true).evaluator)
          (s.worker.beginPass s.worker.index.places) s.mailboxes r ∧
        Worker.ComesTo s.config.delivery (fun _ => (trialEngine true).evaluator)
          (s.worker.beginPass s.worker.index.places.reverse) s.mailboxes r' ∧
        r'.worker = r.worker ∧ r'.mailboxes = r.mailboxes ∧ r'.effects.Perm r.effects := by
  let e := trialEngine false
  let acts : List Stream.Act :=
    [.connect (.flag "f") none, .connect .all none, .work e, .work e, .leave 1]
  let last := ((trialStream .dropNewest).acts? acts).get (by decide)
  have hrun : Run last.1 ([] ++ last.2) :=
    (run_trialStream .dropNewest).acts (Option.some_get _).symm
  have hidle : last.1.worker.phase = .idle := by rfl
  have hpolicy : last.1.config.delivery = .dropNewest := by rfl
  exact ⟨last.1, last.2, hrun, hidle, hpolicy, by decide, by decide, by decide,
    (hrun.order_immaterial hidle hpolicy _ (.refl _) (List.reverse_perm _)).1⟩

end FlagFanout
