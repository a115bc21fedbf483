import FlagFanout.Proofs.Context.Fingerprint
import FlagFanout.Proofs.Stream.Orderly

/-!
# Who shares a channel

A channel is found by a selector and a number, the discriminator, and it keeps the context of the
connection for which it was made. Channels are made, emptied, given up and made again; still every
channel has a founder, a connection that was opened at its place for its context, and everybody
whom the index lists was opened there too (`Settled`).

`Run.grouped` draws the conclusion: as long as the discriminators of the contexts in use do not
collide (`Context.CollisionFree`), the members of a channel are connections with its selector and
with contexts equal to its own, and connections with one selector and equal contexts are in one
channel.
-/

namespace FlagFanout

/-! ## Discriminators -/

namespace Context

/-- Equal contexts, or none on both sides, have the same discriminator. -/
theorem discriminator?_eq_of_beq {digest : List UInt8 → UInt64} {a b : Option Context}
    (h : (a == b) = true) : discriminator? digest a = discriminator? digest b := by
  cases a with
  | none =>
    cases b with
    | none => rfl
    | some d => cases h
  | some c =>
    cases b with
    | none => cases h
    | some d => exact congrArg digest (bytes_eq_of_beq h)

/-- The discriminators of some contexts do not collide: unequal ones have different discriminators,
and none has that of a connection without context. -/
structure CollisionFree (digest : List UInt8 → UInt64) (used : List Context) : Prop where
  apart : ∀ a ∈ used, ∀ b ∈ used, (a == b) = false → a.discriminator digest ≠ b.discriminator digest
  ne_zero : ∀ a ∈ used, a.discriminator digest ≠ 0

/-- Where nothing collides, a discriminator tells the context. -/
theorem CollisionFree.beq_of_discriminator? {digest : List UInt8 → UInt64} {used : List Context}
    (h : CollisionFree digest used) {a b : Option Context} (ha : ∀ c, a = some c → c ∈ used)
    (hb : ∀ c, b = some c → c ∈ used) (heq : discriminator? digest a = discriminator? digest b) :
    (a == b) = true := by
  cases a with
  | none =>
    cases b with
    | none => rfl
    | some d => exact absurd heq.symm (h.ne_zero d (hb d rfl))
  | some c =>
    cases b with
    | none => exact absurd heq (h.ne_zero c (ha c rfl))
    | some d =>
      have hne : (c == d) ≠ false := fun hne => h.apart c (ha c rfl) d (hb d rfl) hne heq
      exact Bool.not_eq_false _ ▸ hne

end Context

/-- The contexts for which connections were opened. -/
def contextsUsed (log : List Event) : List Context :=
  log.filterMap fun
    | .opened _ context => context
    | _ => none

theorem mem_contextsUsed {log : List Event} {c : Connection} {context : Context}
    (h : .opened c (some context) ∈ log) : context ∈ contextsUsed log :=
  List.mem_filterMap.2 ⟨_, h, rfl⟩

theorem Stream.Move.digest_eq {s s' : Stream} {events : List Event} (hmove : Move s s' events) :
    s'.digest = s.digest := by
  cases hmove with
  | work hturn => cases hturn <;> rfl
  | still | connect | connectClosed | disconnect | take | leave | close => rfl

/-- A connection is opened by the act that opens it, with the discriminator of its context. -/
theorem Stream.discriminator_of_act? {s s' : Stream} {a : Act} {events : List Event}
    (hact : s.act? a = some (s', events)) {c : Connection} {context : Option Context}
    (h : .opened c context ∈ events) :
    c.discriminator = Context.discriminator? s.digest context := by
  cases a with
  | connect selector context' =>
    obtain ⟨r, hr, heq⟩ := Option.map_eq_some_iff.1 hact
    cases heq
    have hc : r.1 = s.nextConnection selector context' := by
      unfold connect? at hr
      split at hr
      · cases hr
        rfl
      · split at hr
        · cases hr
        · cases hr
          rfl
    obtain ⟨rfl, rfl⟩ : c = r.1 ∧ context = context' := by simpa using h
    rw [hc]
    rfl
  | disconnect c' =>
    obtain ⟨r, -, heq⟩ := Option.map_eq_some_iff.1 hact
    cases heq
    cases h
  | take number =>
    simp only [act?] at hact
    split at hact <;> cases hact <;> simp at h
  | leave number =>
    cases hact
    cases h
  | close e =>
    cases hact
    cases h
  | work e =>
    obtain ⟨next, hnext, heq⟩ := Option.map_eq_some_iff.1 hact
    cases heq
    exact absurd h (Traced.not_opened_of_turn (turn_of_step? hnext) c context)
  | begin e places =>
    obtain ⟨next, hnext, heq⟩ := Option.map_eq_some_iff.1 hact
    cases heq
    exact absurd h (Traced.not_opened_of_turn (turn_of_begin? hnext) c context)

/-- Every connection carries the discriminator of its context. -/
theorem Run.discriminator_of_opened {s : Stream} {log : List Event} (h : Run s log)
    {c : Connection} {context : Option Context} (hc : .opened c context ∈ log) :
    c.discriminator = Context.discriminator? s.digest context := by
  induction h with
  | start => cases hc
  | act hrun hact ih =>
    rw [(Stream.move_of_act? hact).digest_eq]
    rcases List.mem_append.1 hc with hc | hc
    · exact ih hc
    · exact Stream.discriminator_of_act? hact hc

/-! ## Founders -/

/-- A channel was made for a connection opened at its place, and everybody whom it lists was opened
there. -/
structure Channel.Settled (c : Channel) (place : Place) (log : List Event) : Prop where
  founder : ∃ id, .opened ⟨id, place.1, place.2⟩ c.context ∈ log
  opened_of_mem : ∀ id ∈ c.members, ∃ context, .opened ⟨id, place.1, place.2⟩ context ∈ log

/-- Fewer members need no other founder. -/
theorem Channel.Settled.of_members {c d : Channel} {place : Place} {log : List Event}
    (h : c.Settled place log) (hcontext : d.context = c.context)
    (hmembers : d.members ⊆ c.members) :
    d.Settled place log :=
  ⟨hcontext ▸ h.founder, fun id hid => h.opened_of_mem id (hmembers hid)⟩

/-- Every channel of an index is settled. -/
def ChannelIndex.Settled (i : ChannelIndex) (log : List Event) : Prop :=
  ∀ (place : Place) c, i.find? place.1 place.2 = some c → c.Settled place log

namespace ChannelIndex.Settled

variable {i : ChannelIndex} {log : List Event}

theorem append (h : i.Settled log) (events : List Event) : i.Settled (log ++ events) := by
  intro place c hfind
  obtain ⟨⟨id, hid⟩, hmembers⟩ := h place c hfind
  exact ⟨⟨id, List.mem_append_left _ hid⟩, fun id' hid' =>
    (hmembers id' hid').imp fun _ hopened => List.mem_append_left _ hopened⟩

theorem put (h : i.Settled log) {place : Place} {c : Channel} (hc : c.Settled place log) :
    (i.put place.1 place.2 c).Settled log := by
  intro place' c' hfind
  rw [find?_put] at hfind
  split at hfind
  · next heq =>
    cases hfind
    exact heq ▸ hc
  · exact h place' c' hfind

theorem collect (h : i.Settled log) (place : Place) : (i.collect place.1 place.2).Settled log :=
  fun place' c hfind => h place' c (find?_of_collect place hfind)

theorem collected (h : i.Settled log) (pruned : List (Place × Nat)) :
    (Worker.collected i pruned).Settled log := by
  induction pruned generalizing i with
  | nil => exact h
  | cons e rest ih => exact ih (h.collect e.1)

/-- The channel for a newcomer, found or made, is settled. -/
theorem channelFor {w : Worker} (h : w.index.Settled log) (ev : Evaluator) (place : Place)
    {id : ConnectionId} {context : Option Context}
    (hopened : .opened ⟨id, place.1, place.2⟩ context ∈ log) :
    (w.channelFor ev place.1 place.2 context).Settled place log := by
  cases hfind : w.index.find? place.1 place.2 with
  | some c =>
    rw [Worker.channelFor_of_find? hfind]
    exact h place c hfind
  | none =>
    rw [Worker.channelFor_of_find?_eq_none hfind]
    exact ⟨⟨id, hopened⟩, fun id' hid' => nomatch hid'⟩

end ChannelIndex.Settled

/-- Where the channels of a stream come from, and who is listed in them. -/
structure Founded (s : Stream) (log : List Event) : Prop where
  settled : s.worker.index.Settled log
  /-- Whoever a push reaches is listed in the channel. -/
  mem_of_push : ∀ push, s.worker.phase.push? = some push →
    push.served ++ push.waiting ⊆ s.worker.index.membersAt push.place

namespace Founded

variable {s : Stream} {log : List Event}

/-- Outside a push only the channels matter. -/
theorem of_settled {s' : Stream} {log : List Event} (h : s'.worker.index.Settled log)
    (hpush : s'.worker.phase.push? = none) : Founded s' log :=
  ⟨h, fun push hp => by rw [hpush] at hp; cases hp⟩

theorem serve (h : Founded s log) {pass : Pass} {push : Push} {id : ConnectionId}
    {waiting : List ConnectionId} {out : Attempt} {mailboxes : Mailboxes} {events : List Event}
    (hphase : s.worker.phase = .pushing pass push) (hwaiting : push.waiting = id :: waiting) :
    Founded
      { s with
        mailboxes
        worker := { s.worker with
          phase := .pushing pass { push with
            served := if out = .disconnected then push.served else push.served ++ [id]
            waiting
            tally := push.tally + out.tally } } }
      (log ++ events) := by
  have hsubset := h.mem_of_push push (by rw [hphase]; rfl)
  rw [hwaiting] at hsubset
  refine ⟨h.settled.append _, fun push' hp => ?_⟩
  cases hp
  intro id' hid'
  refine hsubset ?_
  simp only at hid'
  split at hid' <;> simp only [List.mem_append, List.mem_cons, List.not_mem_nil] at hid' ⊢ <;> tauto

theorem endPush (h : Founded s log) (henrolled : Enrolled s log) {pass : Pass} {push : Push}
    (hphase : s.worker.phase = .pushing pass push) :
    (s.worker.endPush pass push).1.index.Settled log := by
  have hpush : s.worker.phase.push? = some push := by rw [hphase]; rfl
  obtain ⟨c, hfind⟩ := henrolled.find?_of_push? push hpush
  rw [Worker.endPush_of_find? hfind]
  refine h.settled.put ((h.settled push.place c hfind).of_members rfl fun id hid => ?_)
  rw [← ChannelIndex.membersAt_of_find? hfind]
  exact h.mem_of_push push hpush (List.mem_append_left _ hid)

theorem turn (h : Founded s log) (henrolled : Enrolled s log) (htraced : Traced s log) {e : Engine}
    {next : Stream.Step} {events : List Event} (hturn : Stream.Turn e s next events) :
    Founded next.stream (log ++ events) := by
  cases hturn with
  | stop => exact of_settled (fun place c hfind => nomatch hfind) rfl
  | @refuse id selector discriminator context queue c hphase hqueue hchannel =>
    have hopened := htraced.of_queue id selector discriminator context
      (hqueue ▸ List.mem_cons_self)
    have hc := h.settled.channelFor e.evaluator (selector, discriminator) hopened
    rw [hchannel] at hc
    exact of_settled (((h.settled.put hc).collect (selector, discriminator)).append _)
      (congrArg Phase.push? hphase)
  | @join id selector discriminator context queue c out hphase hqueue hchannel =>
    have hopened := htraced.of_queue id selector discriminator context
      (hqueue ▸ List.mem_cons_self)
    have hc := h.settled.channelFor e.evaluator (selector, discriminator) hopened
    rw [hchannel] at hc
    have hjoined : (c.join id).Settled (selector, discriminator) log := by
      refine ⟨hc.founder, fun id' hid' => ?_⟩
      rcases List.mem_append.1 hid' with hid' | hid'
      · exact hc.opened_of_mem id' hid'
      · exact ⟨context, List.mem_singleton.1 hid' ▸ hopened⟩
    exact of_settled ((h.settled.put hjoined).append _) (congrArg Phase.push? hphase)
  | ignore hphase =>
    exact of_settled (h.settled.append _) (congrArg Phase.push? hphase)
  | @depart id selector discriminator queue c hphase hqueue hfind =>
    have hc := h.settled (selector, discriminator) c hfind
    have hleft : (c.leave id).Settled (selector, discriminator) log :=
      hc.of_members rfl List.erase_subset
    exact of_settled (((h.settled.put hleft).collect (selector, discriminator)).append _)
      (congrArg Phase.push? hphase)
  | begin => exact of_settled (h.settled.append _) rfl
  | pass => exact of_settled (h.settled.append _) rfl
  | @produce pass place todo c last m hphase htodo hfind =>
    have hc : Channel.Settled { c with last } place log :=
      (h.settled place c hfind).of_members rfl (List.Subset.refl _)
    refine ⟨(h.settled.put hc).append _, fun push hp => ?_⟩
    cases hp
    rw [ChannelIndex.membersAt_of_find? (ChannelIndex.find?_put_self ..)]
    exact List.Subset.refl _
  | endPass =>
    refine of_settled (ChannelIndex.Settled.append ?_ _) (by rw [Worker.endPass_phase]; rfl)
    rw [Worker.endPass_index]
    exact h.settled.collected _
  | serve hphase hwaiting => exact h.serve hphase hwaiting
  | stall hphase | resume hphase =>
    refine ⟨h.settled.append _, fun push hp => h.mem_of_push push ?_⟩
    rw [hphase]
    exact hp
  | endPush hphase =>
    exact of_settled ((h.endPush henrolled hphase).append _) (by rw [Worker.endPush_phase]; rfl)

theorem move (h : Founded s log) (henrolled : Enrolled s log) (htraced : Traced s log)
    {s' : Stream} {events : List Event} (hmove : Stream.Move s s' events) :
    Founded s' (log ++ events) := by
  cases hmove with
  | work hturn => exact h.turn henrolled htraced hturn
  | still | connect | connectClosed | disconnect | take | leave | close =>
    exact ⟨h.settled.append _, h.mem_of_push⟩

end Founded

theorem Run.founded {s : Stream} {log : List Event} (h : Run s log) : Founded s log :=
  h.induct (fun _ _ _ _ _ _ => .of_settled (fun _ _ hfind => nomatch hfind) rfl)
    fun hrun ih hmove => ih.move hrun.enrolled hrun.traced hmove

/-! ## Groups -/

/-- Channels and connections go together by selector and context. -/
structure Grouped (s : Stream) (log : List Event) : Prop where
  /-- A member was opened once, with the selector of its channel and for a context equal to that of
  its channel. -/
  of_member : ∀ (place : Place) c, s.worker.index.find? place.1 place.2 = some c →
    ∀ id ∈ c.members, (∃ conn context, conn.id = id ∧ .opened conn context ∈ log) ∧
      ∀ conn context, conn.id = id → .opened conn context ∈ log →
        conn.selector = place.1 ∧ (context == c.context) = true
  /-- Connections with one selector and equal contexts are in one channel. -/
  together : ∀ place place' : Place, ∀ conn conn' context context',
    .opened conn context ∈ log → .opened conn' context' ∈ log →
      conn.id ∈ s.worker.index.membersAt place → conn'.id ∈ s.worker.index.membersAt place' →
        conn.selector = conn'.selector → (context == context') = true → place = place'
  /-- There is one channel at most for a selector and a context. -/
  unique : ∀ (place place' : Place) c c', s.worker.index.find? place.1 place.2 = some c →
    s.worker.index.find? place'.1 place'.2 = some c' → place.1 = place'.1 →
      (c.context == c'.context) = true → place = place'
  /-- Those whom a push found gone apart, the members are those whom the index lists. -/
  roster_subset : ∀ place, s.worker.roster place ⊆ s.worker.index.membersAt place

/-- **Connections are grouped by selector and context**, as long as no discriminators collide. -/
theorem Run.grouped {s : Stream} {log : List Event} (h : Run s log)
    (hfree : Context.CollisionFree s.digest (contextsUsed log)) : Grouped s log := by
  have hused : ∀ {conn context}, .opened conn context ∈ log →
      ∀ c, context = some c → c ∈ contextsUsed log := by
    rintro conn _ hopened c rfl
    exact mem_contextsUsed hopened
  have hplace : ∀ {place : Place} {conn context}, conn.id ∈ s.worker.index.membersAt place →
      .opened conn context ∈ log → place = (conn.selector, conn.discriminator) := by
    intro place conn context hid hopened
    obtain ⟨c, hfind, hmem⟩ := ChannelIndex.exists_find?_of_mem_membersAt hid
    obtain ⟨context', hopened'⟩ := (h.founded.settled place c hfind).opened_of_mem _ hmem
    rw [h.traced.unique conn _ _ _ hopened hopened' rfl]
  refine
    { of_member := fun place c hfind id hid => ?_
      together := fun place place' conn conn' context context' hopened hopened' hid hid' hselector
        hcontext => ?_
      unique := fun place place' c c' hfind hfind' hselector hcontext => ?_
      roster_subset := fun place => ?_ }
  · have hmem : id ∈ s.worker.index.membersAt place := by
      rwa [ChannelIndex.membersAt_of_find? hfind]
    obtain ⟨context₀, hopened₀⟩ := (h.founded.settled place c hfind).opened_of_mem id hid
    refine ⟨⟨_, context₀, rfl, hopened₀⟩, fun conn context heq hopened => ?_⟩
    have hat := hplace (heq ▸ hmem) hopened
    obtain ⟨founder, hfounder⟩ := (h.founded.settled place c hfind).founder
    refine ⟨(congrArg Prod.fst hat).symm,
      hfree.beq_of_discriminator? (hused hopened) (hused hfounder) ?_⟩
    rw [← h.discriminator_of_opened hopened, ← h.discriminator_of_opened hfounder]
    exact (congrArg Prod.snd hat).symm
  · rw [hplace hid hopened, hplace hid' hopened', hselector, h.discriminator_of_opened hopened,
      h.discriminator_of_opened hopened', Context.discriminator?_eq_of_beq hcontext]
  · obtain ⟨founder, hfounder⟩ := (h.founded.settled place c hfind).founder
    obtain ⟨founder', hfounder'⟩ := (h.founded.settled place' c' hfind').founder
    refine Prod.ext hselector ?_
    have hdiscriminator := h.discriminator_of_opened hfounder
    have hdiscriminator' := h.discriminator_of_opened hfounder'
    rw [← Context.discriminator?_eq_of_beq hcontext] at hdiscriminator'
    exact hdiscriminator.trans hdiscriminator'.symm
  · cases hpush : s.worker.phase.push? with
    | none =>
      rw [Worker.roster_of_push?_eq_none hpush]
      exact List.Subset.refl _
    | some push =>
      rw [Worker.roster_of_push? hpush]
      split
      · next heq => exact heq ▸ h.founded.mem_of_push push hpush
      · exact List.Subset.refl _

theorem Context.attributes_injective : Function.Injective Context.attributes := by
  rintro ⟨_⟩ ⟨_⟩ rfl
  rfl

/-- Two connections whose contexts differ in the sign of a zero, one without context and one with
another context; the channel of the first two is emptied and made again. -/
theorem grouped_after_renewal :
    ∃ s log, Run s log ∧ Context.CollisionFree s.digest (contextsUsed log) ∧
      contextsUsed log = [⟨.ofList [("n", .number (.zero false))]⟩,
        ⟨.ofList [("n", .number (.zero true))]⟩, ⟨.ofList [("n", .text "0")]⟩,
        ⟨.ofList [("n", .number (.zero true))]⟩] ∧
      s.worker.index.members = [⟨0, 2⟩, ⟨0, 3⟩, ⟨0, 4⟩] ∧ s.worker.index.count = 3 ∧
      Grouped s log := by
  let e := trialEngine true
  let zero (negative : Bool) : Context := ⟨.ofList [("n", .number (.zero negative))]⟩
  let start := (Stream.start 0 "p" "e" ⟨1, 8, .dropNewest, "s"⟩
    (fun bytes => UInt64.ofNat (bytes.length + 1)) (.ofStore .unconfigured)).1
  let place := start.nextConnection .all (some (zero false))
  let acts : List Stream.Act :=
    [.connect .all (some (zero false)), .connect .all (some (zero true)), .connect .all none,
      .connect .all (some ⟨.ofList [("n", .text "0")]⟩), .work e, .work e, .work e, .work e,
      .disconnect place, .disconnect { place with id := ⟨0, 1⟩ }, .work e, .work e,
      .connect .all (some (zero true)), .work e]
  let last := (start.acts? acts).get (by decide +kernel)
  have hrun : Run last.1 last.2 := by
    rw [← List.nil_append last.2]
    exact (Run.start 0 "p" "e" _ _ _).acts (Option.some_get _).symm
  have hused : contextsUsed last.2 =
      [zero false, zero true, ⟨.ofList [("n", .text "0")]⟩, zero true] :=
    Context.attributes_injective.list_map (by decide +kernel)
  have hfree : Context.CollisionFree last.1.digest (contextsUsed last.2) := by
    rw [hused]
    exact ⟨by decide +kernel, by decide +kernel⟩
  exact ⟨last.1, last.2, hrun, hfree, hused, by decide +kernel, by decide +kernel,
    hrun.grouped hfree⟩

end FlagFanout
