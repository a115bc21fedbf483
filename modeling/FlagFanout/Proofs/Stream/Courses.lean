import FlagFanout.Proofs.Stream.Outlook

/-!
# Courses of jobs

Between two jobs a worker looks in a certain way to each of its connections (`Worker.Shows`), and
each job makes of this what `Outlook.command` and `Outlook.pass` say: `Worker.Shows.handle` and
`Worker.Shows.makesPass`. A pass is followed from its beginning to its end as it concerns the one
connection, and every completed pass can be looked at in this way
(`Worker.Shows.makesPass_of_passing`).

`Worker.Course` is what happens job after job. The order in which a pass visits the channels, how
the others read and whether new mailboxes are added is left open everywhere, so two courses with the
same jobs may have little else in common. Still a connection to which two workers look the same at
the beginning gets the same messages in both (`Worker.Course.placed_eq`).
-/

namespace FlagFanout

namespace Worker

/-! ## Between two jobs -/

/-- Between two jobs, the worker and the mailboxes look so to a connection. -/
structure Shows (w : Worker) (boxes : Mailboxes) (id : ConnectionId) (o : Outlook) : Prop where
  phase_eq : w.phase = .idle
  sits : w.Sits id (o.seat.map (·.place))
  channel : ∀ seat, o.seat = some seat →
    ∃ c, w.index.find? seat.place.1 seat.place.2 = some c ∧ seat = .ofChannel seat.place c
  box_eq : boxes.get? id.number = some o.box

namespace Shows

variable {policy : DeliveryPolicy} {engine : Place → Evaluator} {w w' : Worker} {id : ConnectionId}
  {o : Outlook} {boxes boxes' : Mailboxes}

theorem push?_eq_none (h : Shows w boxes id o) : w.phase.push? = none := by
  rw [h.phase_eq]
  rfl

theorem of_unseated (hphase : w.phase = .idle) (hsits : w.Sits id none) {box : Mailbox}
    (hbox : boxes.get? id.number = some box) : Shows w boxes id ⟨none, box⟩ where
  phase_eq := hphase
  sits := hsits
  channel seat hseat := by cases hseat
  box_eq := hbox

/-- The mailbox is another, and the seat the same. -/
theorem with_box (h : Shows w boxes id o) {box : Mailbox}
    (hbox : boxes'.get? id.number = some box) : Shows w boxes' id { o with box } where
  phase_eq := h.phase_eq
  sits := h.sits
  channel := h.channel
  box_eq := hbox

/-- The seat remains where the channels keep what they hold. -/
theorem of_keeps (h : Shows w boxes id o) (hphase : w'.phase = .idle)
    (hsits : w'.Sits id (o.seat.map (·.place))) (hkeeps : w.index.Keeps w'.index)
    (hbox : boxes'.get? id.number = boxes.get? id.number) : Shows w' boxes' id o where
  phase_eq := hphase
  sits := hsits
  channel seat hseat := by
    obtain ⟨c, hfind, heq⟩ := h.channel seat hseat
    rw [hseat] at hsits
    have hid := hsits.mem
    rw [roster_of_push?_eq_none (by rw [hphase]; rfl)] at hid
    obtain ⟨c', hfind', hsame⟩ := hkeeps.seat_eq hfind hid
    exact ⟨c', hfind', heq.trans hsame.symm⟩
  box_eq := hbox.trans h.box_eq

/-- What a pass over all channels has in store. -/
theorem inStore (h : Shows w boxes id o) {order : List Place} (horder : order.Perm w.index.places) :
    InStore engine (w.beginPass order) id (o.visit engine).1.seat (o.visit engine).2 := by
  have hroster : ∀ place, (w.beginPass order).roster place = w.roster place :=
    roster_congr h.push?_eq_none.symm fun _ => rfl
  have hnodup : order.Nodup := horder.nodup_iff.2 (ChannelIndex.nodup_places _)
  cases hseat : o.seat with
  | none =>
    have hsits := h.sits
    rw [hseat] at hsits
    simp only [Outlook.visit, hseat]
    exact ⟨hsits.congr hroster, hnodup, fun _ hp => (nomatch hp), .outside⟩
  | some seat =>
    have hsits := h.sits
    obtain ⟨c, hfind, heq⟩ := h.channel seat hseat
    have hmem : seat.place ∈ order := horder.mem_iff.2 (ChannelIndex.mem_places_of_find? hfind)
    simp only [Outlook.visit, hseat]
    refine ⟨?_, hnodup, fun _ hp => (nomatch hp), ?_⟩
    · rw [Option.map_some, Seat.visit_place]
      rw [hseat] at hsits
      exact hsits.congr hroster
    · rw [heq]
      exact .coming hmem hfind

/-- At the end of a pass nothing is left in store. -/
theorem of_inStore {seat : Option Seat} {m : Option Message} (h : InStore engine w id seat m)
    (hphase : w.phase = .idle) {box : Mailbox} (hbox : boxes.get? id.number = some box) :
    m = none ∧ Shows w boxes id ⟨seat, box⟩ := by
  have hplaces : w.phase.todo = [] := by rw [hphase]; rfl
  have hpush : w.phase.push? = none := by rw [hphase]; rfl
  cases h.foresees with
  | outside => exact ⟨rfl, of_unseated hphase h.sits hbox⟩
  | coming hmem =>
    rw [hplaces] at hmem
    cases hmem
  | due hp =>
    rw [hpush] at hp
    cases hp
  | past hmem hid hfind =>
    refine ⟨rfl, hphase, h.sits, ?_, hbox⟩
    rintro _ ⟨⟩
    exact ⟨_, hfind, rfl⟩

end Shows

/-! ## Passes from beginning to end -/

/-- A stretch of a pass during which it is never the connection's turn: the worker takes steps, the
client touches the mailbox, and whatever happens to the mailboxes of the others. -/
inductive OutOfTurn (policy : DeliveryPolicy) (engine : Place → Evaluator) (id : ConnectionId) :
    Worker → Mailboxes → List Touch → List Effect → Worker → Mailboxes → Prop
  | still (w : Worker) (boxes : Mailboxes) : OutOfTurn policy engine id w boxes [] [] w boxes
  | step {w w' : Worker} {boxes boxes' : Mailboxes} {r : Result} {touches : List Touch}
    {fx : List Effect} (hturn : ¬w.IsTurn policy boxes id)
    (hstep : w.advance? policy engine boxes = some r)
    (hrest : OutOfTurn policy engine id r.worker r.mailboxes touches fx w' boxes') :
    OutOfTurn policy engine id w boxes touches (r.effects ++ fx) w' boxes'
  | touch {w w' : Worker} {boxes boxes' : Mailboxes} {touches : List Touch} {fx : List Effect}
    (t : Touch)
    (hrest : OutOfTurn policy engine id w (boxes.modify id.number t.apply) touches fx w' boxes') :
    OutOfTurn policy engine id w boxes (t :: touches) fx w' boxes'
  | others {w w' : Worker} {boxes boxes' stirred : Mailboxes} {touches : List Touch}
    {fx : List Effect} (hbox : stirred.get? id.number = boxes.get? id.number)
    (hrest : OutOfTurn policy engine id w stirred touches fx w' boxes') :
    OutOfTurn policy engine id w boxes touches fx w' boxes'

/-- The rest of a pass. The client does so much to the mailbox before it is the connection's turn,
and so much afterwards; if the turn does not come, that is all one. -/
inductive RestOfPass (policy : DeliveryPolicy) (engine : Place → Evaluator) (id : ConnectionId)
    (ahead behind : List Touch) (w : Worker) (boxes : Mailboxes) :
    List Effect → Worker → Mailboxes → Prop
  /-- At its turn the connection is offered a message. -/
  | offering {w₁ w' : Worker} {boxes₁ boxes' : Mailboxes} {r : Result} {fx fx' : List Effect}
    (hahead : OutOfTurn policy engine id w boxes ahead fx w₁ boxes₁)
    (hturn : w₁.IsTurn policy boxes₁ id) (hstep : w₁.advance? policy engine boxes₁ = some r)
    (hbehind : OutOfTurn policy engine id r.worker r.mailboxes behind fx' w' boxes') :
    RestOfPass policy engine id ahead behind w boxes (fx ++ (r.effects ++ fx')) w' boxes'
  /-- There is nothing for the connection. -/
  | sparing {w' : Worker} {boxes' : Mailboxes} {fx : List Effect}
    (hall : OutOfTurn policy engine id w boxes (ahead ++ behind) fx w' boxes') :
    RestOfPass policy engine id ahead behind w boxes fx w' boxes'

/-- A pass over all channels in some order, from its beginning to its end. -/
def MakesPass (policy : DeliveryPolicy) (engine : Place → Evaluator) (id : ConnectionId)
    (ahead behind : List Touch) (w : Worker) (boxes : Mailboxes) (fx : List Effect) (w' : Worker)
    (boxes' : Mailboxes) : Prop :=
  w'.phase = .idle ∧ ∃ order, order.Perm w.index.places ∧
    RestOfPass policy engine id ahead behind (w.beginPass order) boxes fx w' boxes'

theorem placed_effects_append (id : ConnectionId) (fx fx' : List Effect) :
    placed id ((fx ++ fx').map .effect) =
      placed id (fx.map .effect) ++ placed id (fx'.map .effect) := by
  rw [List.map_append, placed_append]

section Passes

variable {policy : DeliveryPolicy} {engine : Place → Evaluator} {w w' : Worker} {id : ConnectionId}
  {boxes boxes' : Mailboxes} {fx : List Effect}

theorem InStore.outOfTurn {seat : Option Seat} {m : Option Message} (h : InStore engine w id seat m)
    {touches : List Touch} (hstretch : OutOfTurn policy engine id w boxes touches fx w' boxes')
    {box : Mailbox} (hbox : boxes.get? id.number = some box) :
    InStore engine w' id seat m ∧ boxes'.get? id.number = some (box.touched touches) ∧
      placed id (fx.map .effect) = [] := by
  induction hstretch generalizing box with
  | still => exact ⟨h, hbox, rfl⟩
  | step hturn hstep hrest ih =>
    obtain ⟨hnext, hsame, hnothing⟩ := h.advance (advance?_eq_some_iff.1 hstep) hturn
    obtain ⟨hlast, hbox', hnothing'⟩ := ih hnext (hsame.trans hbox)
    exact ⟨hlast, hbox', by rw [placed_effects_append, hnothing, hnothing']; rfl⟩
  | touch t hrest ih =>
    refine ih h ?_
    rw [Mailboxes.get?_modify, if_pos rfl, hbox]
    rfl
  | others hsame hrest ih => exact ih h (hsame.trans hbox)

/-- **A pass makes of an outlook what `Outlook.pass` says.** -/
theorem Shows.makesPass {o : Outlook} (h : Shows w boxes id o) {ahead behind : List Touch}
    (hpass : MakesPass policy engine id ahead behind w boxes fx w' boxes') :
    Shows w' boxes' id (o.pass policy engine ahead behind).1 ∧
      placed id (fx.map .effect) = (o.pass policy engine ahead behind).2 := by
  obtain ⟨hphase, order, horder, hpass⟩ := hpass
  cases hpass with
  | offering hahead hturn hstep hbehind =>
    obtain ⟨hstore, hbox, hnothing⟩ := (h.inStore horder).outOfTurn hahead h.box_eq
    obtain ⟨m, hm, hoffered, hbox', hsent⟩ :=
      hstore.turn (advance?_eq_some_iff.1 hstep) hturn hbox
    obtain ⟨hlast, hbox'', hnothing'⟩ := hoffered.outOfTurn hbehind hbox'
    rw [Outlook.pass_of_moved hm, Outlook.touched, Outlook.visit_box]
    refine ⟨(Shows.of_inStore hlast hphase hbox'').2, ?_⟩
    rw [placed_effects_append, placed_effects_append, hnothing, hnothing', hsent, List.append_nil]
    rfl
  | sparing hall =>
    obtain ⟨hstore, hbox, hnothing⟩ := (h.inStore horder).outOfTurn hall h.box_eq
    obtain ⟨hm, hshows⟩ := Shows.of_inStore hstore hphase hbox
    rw [Outlook.pass_of_quiet hm, Outlook.touched, Outlook.visit_box]
    exact ⟨hshows, hnothing⟩

end Passes

/-! ## Every pass as it concerns one connection

A completed pass gives a connection one turn at most, so it is of the form that `MakesPass` says,
whichever connection one looks at. -/

/-- What a connection takes during a pass. -/
def takes (id : ConnectionId) (events : List Event) : List Touch :=
  events.filterMap fun
    | .taken id' _ => if id'.number = id.number then some .take else none
    | _ => none

section Views

variable {policy : DeliveryPolicy} {engine : Place → Evaluator} {w w' : Worker} {id : ConnectionId}
  {boxes boxes' : Mailboxes} {events : List Event} {seat : Option Seat}

theorem takes_append (events events' : List Event) :
    takes id (events ++ events') = takes id events ++ takes id events' := List.filterMap_append

theorem takes_effects (fx : List Effect) : takes id (fx.map .effect) = [] := by
  refine List.filterMap_eq_nil_iff.2 fun event hevent => ?_
  obtain ⟨f, -, rfl⟩ := List.mem_map.1 hevent
  rfl

/-- Taking a message is a touch to the connection that takes it, and nothing to the others. -/
theorem OutOfTurn.of_taken {id' : ConnectionId} {box : Mailbox} {m : Message} {rest : List Message}
    (hbox : boxes.get? id'.number = some box) (hmessages : box.messages = m :: rest)
    {touches : List Touch} {fx : List Effect}
    (hrest : OutOfTurn policy engine id w
      (boxes.modify id'.number fun b => { b with messages := rest }) touches fx w' boxes') :
    OutOfTurn policy engine id w boxes (takes id [.taken id' m] ++ touches) fx w' boxes' := by
  by_cases hnumber : id'.number = id.number
  · have htouch : boxes.modify id.number Touch.take.apply =
        boxes.modify id'.number fun b => { b with messages := rest } := by
      refine Mailboxes.ext_get? fun k => ?_
      rw [Mailboxes.get?_modify, Mailboxes.get?_modify, hnumber]
      split
      · next hk =>
        rw [hk, ← hnumber, hbox]
        simp [Touch.apply, hmessages]
      · rfl
    have htakes : takes id [.taken id' m] = [.take] := by simp [takes, hnumber]
    rw [htakes]
    refine .touch .take ?_
    rw [htouch]
    exact hrest
  · have htakes : takes id [.taken id' m] = [] := by simp [takes, hnumber]
    rw [htakes]
    refine .others ?_ hrest
    rw [Mailboxes.get?_modify, if_neg (Ne.symm hnumber)]

/-- What was in store for a connection was offered, so its turn does not come again. -/
theorem InStore.not_isTurn (h : InStore engine w id seat none) : ¬w.IsTurn policy boxes id := by
  rintro ⟨p, q, waiting, hphase, hwaiting, -⟩
  have hpush : w.phase.push? = some q := by rw [hphase]; rfl
  obtain ⟨c, -, -, hm⟩ := h.exists_due hpush (hwaiting ▸ .head _)
  cases hm

theorem InStore.outOfTurn_of_passing (h : InStore engine w id seat none)
    (hpassing : Passing policy engine w boxes events w' boxes') :
    ∃ fx, OutOfTurn policy engine id w boxes (takes id events) fx w' boxes' ∧
      placed id (fx.map .effect) = placed id events := by
  induction hpassing with
  | finished => exact ⟨[], .still _ _, rfl⟩
  | @step w w' boxes boxes' r events hstep hrest ih =>
    have hnext := (h.advance (advance?_eq_some_iff.1 hstep) h.not_isTurn).1
    obtain ⟨fx, hout, hplaced⟩ := ih hnext
    refine ⟨r.effects ++ fx, ?_, by rw [placed_effects_append, placed_append, hplaced]⟩
    rw [takes_append, takes_effects]
    exact .step h.not_isTurn hstep hout
  | @take w w' boxes boxes' id' box m rest events hphase hbox hmessages hrest ih =>
    obtain ⟨fx, hout, hplaced⟩ := ih h
    exact ⟨fx, takes_append [.taken id' m] events ▸ hout.of_taken hbox hmessages, hplaced⟩

theorem RestOfPass.of_step {ahead behind : List Touch} {r : Result} {fx : List Effect}
    (hturn : ¬w.IsTurn policy boxes id) (hstep : w.advance? policy engine boxes = some r)
    (hrest : RestOfPass policy engine id ahead behind r.worker r.mailboxes fx w' boxes') :
    RestOfPass policy engine id ahead behind w boxes (r.effects ++ fx) w' boxes' := by
  cases hrest with
  | offering hahead hturn' hstep' hbehind =>
    rw [← List.append_assoc]
    exact .offering (.step hturn hstep hahead) hturn' hstep' hbehind
  | sparing hall => exact .sparing (.step hturn hstep hall)

theorem RestOfPass.of_taken {ahead behind : List Touch} {id' : ConnectionId} {box : Mailbox}
    {m : Message} {rest : List Message} {fx : List Effect}
    (hbox : boxes.get? id'.number = some box) (hmessages : box.messages = m :: rest)
    (hrest : RestOfPass policy engine id ahead behind w
      (boxes.modify id'.number fun b => { b with messages := rest }) fx w' boxes') :
    RestOfPass policy engine id (takes id [.taken id' m] ++ ahead) behind w boxes fx w' boxes' := by
  cases hrest with
  | offering hahead hturn hstep hbehind =>
    exact .offering (hahead.of_taken hbox hmessages) hturn hstep hbehind
  | sparing hall =>
    refine .sparing ?_
    rw [List.append_assoc]
    exact hall.of_taken hbox hmessages

theorem InStore.restOfPass_of_passing {m : Option Message} (h : InStore engine w id seat m)
    (hpassing : Passing policy engine w boxes events w' boxes') {box : Mailbox}
    (hbox : boxes.get? id.number = some box) :
    ∃ ahead behind fx, RestOfPass policy engine id ahead behind w boxes fx w' boxes' ∧
      ahead ++ behind = takes id events ∧ placed id (fx.map .effect) = placed id events := by
  induction hpassing generalizing box with
  | finished => exact ⟨[], [], [], .sparing (.still _ _), rfl, rfl⟩
  | @step w w' boxes boxes' r events hstep hrest ih =>
    have hadvance := advance?_eq_some_iff.1 hstep
    have htakes : takes id (r.effects.map .effect ++ events) = takes id events := by
      rw [takes_append, takes_effects, List.nil_append]
    by_cases hturn : w.IsTurn policy boxes id
    · obtain ⟨message, -, hoffered, -, -⟩ := h.turn hadvance hturn hbox
      obtain ⟨fx, hbehind, hplaced⟩ := hoffered.outOfTurn_of_passing hrest
      refine ⟨[], takes id events, _, .offering (.still _ _) hturn hstep hbehind, htakes.symm, ?_⟩
      rw [List.nil_append, placed_effects_append, placed_append, hplaced]
    · obtain ⟨hnext, hsame, -⟩ := h.advance hadvance hturn
      obtain ⟨ahead, behind, fx, hfollowing, happend, hplaced⟩ := ih hnext (hsame.trans hbox)
      refine ⟨ahead, behind, _, hfollowing.of_step hturn hstep, happend.trans htakes.symm, ?_⟩
      rw [placed_effects_append, placed_append, hplaced]
  | @take w w' boxes boxes' id' box' m rest events hphase hbox' hmessages hrest ih =>
    obtain ⟨box'', hbox''⟩ : ∃ box'', (boxes.modify id'.number fun b =>
        { b with messages := rest }).get? id.number = some box'' := by
      rw [Mailboxes.get?_modify, hbox]
      split
      · exact ⟨_, rfl⟩
      · exact ⟨_, rfl⟩
    obtain ⟨ahead, behind, fx, hfollowing, happend, hplaced⟩ := ih h hbox''
    refine ⟨_, behind, fx, hfollowing.of_taken hbox' hmessages, ?_, hplaced⟩
    rw [List.append_assoc, happend]
    exact (takes_append [.taken id' m] events).symm

/-- **A completed pass is a pass to every connection**, whatever the others take meanwhile. -/
theorem Shows.makesPass_of_passing {o : Outlook} (h : Shows w boxes id o) {order : List Place}
    (horder : order.Perm w.index.places)
    (hpassing : Passing policy engine (w.beginPass order) boxes events w' boxes') :
    ∃ ahead behind fx, MakesPass policy engine id ahead behind w boxes fx w' boxes' ∧
      ahead ++ behind = takes id events ∧ placed id (fx.map .effect) = placed id events := by
  obtain ⟨ahead, behind, fx, hrest, hsame⟩ :=
    (h.inStore horder).restOfPass_of_passing hpassing h.box_eq
  exact ⟨ahead, behind, fx, ⟨hpassing.phase_eq, order, horder, hrest⟩, hsame⟩

end Views

/-! ## Commands -/

namespace Shows

variable {policy : DeliveryPolicy} {ev : Evaluator} {w : Worker} {id : ConnectionId} {o : Outlook}
  {boxes : Mailboxes}

section Newcomers

variable {id' : ConnectionId} {r : Result}

/-- Somebody else comes too late. -/
theorem refuse (h : Shows w boxes id o) (place : Place) (context : Option Context)
    (hgone : boxes.attempt policy id'.number = .disconnected)
    (hestablish : w.establish policy ev boxes id' place.1 place.2 context = some r) :
    Shows r.worker r.mailboxes id o ∧ placed id (r.effects.map .effect) = [] := by
  rw [establish_of_refused ev place.1 place.2 context hgone] at hestablish
  cases hestablish
  refine ⟨h.of_keeps h.phase_eq (h.sits.congr (roster_congr rfl fun place' => ?_))
    (keeps_collect_channelFor w ev place context) rfl, rfl⟩
  refine (ChannelIndex.membersAt_collect _ place place').trans ?_
  refine (ChannelIndex.membersAt_put _ place place' _).trans ?_
  split
  · next heq => rw [heq, channelFor_members]
  · rfl

/-- Somebody else joins, here or elsewhere. -/
theorem join (h : Shows w boxes id o) (hne : id'.number ≠ id.number) (place : Place)
    (context : Option Context) (hheard : boxes.attempt policy id'.number ∈ [.sent, .dropped])
    (hestablish : w.establish policy ev boxes id' place.1 place.2 context = some r) :
    Shows r.worker r.mailboxes id o ∧ placed id (r.effects.map .effect) = [] := by
  rw [establish_of_heard ev place.1 place.2 context hheard] at hestablish
  cases hestablish
  set c := w.channelFor ev place.1 place.2 context with hc
  refine ⟨⟨h.phase_eq, fun place' => ?_, fun seat hseat => ?_, ?_⟩, ?_⟩
  · rw [roster_join h.push?_eq_none hc.symm, ← h.sits place']
    split
    · simp [hne]
    · rfl
  · obtain ⟨d, hfind, heq⟩ := h.channel seat hseat
    change ∃ d, (w.index.put place.1 place.2 (c.join id')).find? seat.place.1 seat.place.2 =
      some d ∧ _
    rw [ChannelIndex.find?_put]
    by_cases hplace : seat.place = place
    · rw [hplace] at hfind
      rw [channelFor_of_find? hfind] at hc
      exact ⟨_, if_pos hplace, by rw [hc]; exact heq⟩
    · exact ⟨d, (if_neg hplace).trans hfind, heq⟩
  · exact (Mailboxes.get?_offer_of_ne hne.symm).trans h.box_eq
  · rw [placed_greeting, if_neg fun hc => hne (congrArg _ hc.1)]

/-- Somebody else comes. -/
theorem establish (h : Shows w boxes id o) (hne : id'.number ≠ id.number) (place : Place)
    (context : Option Context)
    (hestablish : w.establish policy ev boxes id' place.1 place.2 context = some r) :
    Shows r.worker r.mailboxes id o ∧ placed id (r.effects.map .effect) = [] := by
  cases hout : boxes.attempt policy id'.number with
  | waiting =>
    simp only [Worker.establish, hout] at hestablish
    cases hestablish
  | disconnected => exact h.refuse place context hout hestablish
  | sent => exact h.join hne place context (hout ▸ .head _) hestablish
  | dropped => exact h.join hne place context (hout ▸ .tail _ (.head _)) hestablish

end Newcomers

section Closings

variable {place : Place} {c : Channel}

/-- The connection itself leaves. -/
theorem leave_self (h : Shows w boxes id o) (hfind : w.index.find? place.1 place.2 = some c)
    (hplace : o.seat.map (·.place) = some place) :
    Shows ({ w with index := w.index.put place.1 place.2 (c.leave id) }.collect place).retire boxes
      id { o with seat := none } := by
  refine of_unseated ?_ (fun place' => ?_) h.box_eq
  · exact h.phase_eq
  have hthere := h.sits place'
  rw [hplace] at hthere
  rw [roster_leave h.push?_eq_none hfind]
  split
  · next heq =>
    rw [if_pos (congrArg some heq.symm)] at hthere
    rw [← List.erase_filter, hthere]
    simp
  · next hne =>
    rw [if_neg fun hc => hne (Option.some.inj hc).symm] at hthere
    exact hthere

/-- Somebody else leaves. -/
theorem leave_other (h : Shows w boxes id o) (hfind : w.index.find? place.1 place.2 = some c)
    {id' : ConnectionId} (hne : id' ≠ id) :
    Shows ({ w with index := w.index.put place.1 place.2 (c.leave id') }.collect place).retire boxes
      id o := by
  refine h.of_keeps h.phase_eq (fun place' => ?_) ?_ rfl
  · rw [roster_leave h.push?_eq_none hfind]
    split
    · rw [← List.erase_filter, h.sits place']
      split
      · exact List.erase_of_not_mem (by simpa using hne)
      · rfl
    · exact h.sits place'
  · have hput : w.index.Keeps (w.index.put place.1 place.2 (c.leave id')) :=
      ChannelIndex.keeps_put place hfind rfl rfl
    exact hput.trans (ChannelIndex.keeps_collect _ place)

end Closings

/-- Somebody is closed somewhere. -/
theorem close (h : Shows w boxes id o) (id' : ConnectionId) (selector : Selector)
    (discriminator : UInt64) :
    Shows (w.close id' selector discriminator).1 boxes id
        (o.command id (.closed id' selector discriminator)) ∧
      placed id ((w.close id' selector discriminator).2.map .effect) = [] := by
  have hroster := roster_of_push?_eq_none h.push?_eq_none (selector, discriminator)
  rcases w.close_cases id' (selector, discriminator) with
    ⟨hclose, hnot⟩ | ⟨c, hfind, hmember, hclose⟩
  · rw [hclose, Outlook.command, if_neg]
    · exact ⟨h, rfl⟩
    · rintro ⟨rfl, hplace⟩
      have hsits := h.sits
      rw [hplace] at hsits
      exact hnot (hroster ▸ hsits.mem)
  · rw [← ChannelIndex.membersAt_of_find? hfind, ← hroster] at hmember
    rw [hclose]
    by_cases hself : id' = id
    · subst hself
      have hplace := (h.sits.eq_of_mem hmember rfl).2
      rw [Outlook.command, if_pos ⟨rfl, hplace⟩]
      exact ⟨h.leave_self hfind hplace, rfl⟩
    · rw [Outlook.command, if_neg fun hc => hself hc.1]
      exact ⟨h.leave_other hfind hself, rfl⟩

/-- **A command makes of an outlook what `Outlook.command` says.** -/
theorem handle (h : Shows w boxes id o) {command : Command} {r : Result}
    (hhandle : w.handle policy ev boxes command = some r)
    (hnew : ∀ id', command.newcomer? = some id' → id'.number ≠ id.number) :
    Shows r.worker r.mailboxes id (o.command id command) ∧
      placed id (r.effects.map .effect) = [] := by
  cases command with
  | established id' selector discriminator context =>
    exact h.establish (hnew id' rfl) (selector, discriminator) context hhandle
  | closed id' selector discriminator =>
    cases hhandle
    exact h.close id' selector discriminator

end Shows

/-! ## Job after job -/

/-- What happens to a worker and its mailboxes, job after job, as it concerns one connection.
Whatever happens to the mailboxes of the others in between is left open. -/
inductive Course (policy : DeliveryPolicy) (id : ConnectionId) :
    Worker → Mailboxes → List Job → List Effect → Worker → Mailboxes → Prop
  | done (w : Worker) (boxes : Mailboxes) : Course policy id w boxes [] [] w boxes
  | command {w w' : Worker} {boxes boxes' : Mailboxes} {ev : Evaluator} {command : Command}
    {r : Result} {jobs : List Job} {fx : List Effect}
    (hhandle : w.handle policy ev boxes command = some r)
    (hrest : Course policy id r.worker r.mailboxes jobs fx w' boxes') :
    Course policy id w boxes (.command ev command :: jobs) (r.effects ++ fx) w' boxes'
  | pass {w w₁ w' : Worker} {boxes boxes₁ boxes' : Mailboxes} {engine : Place → Evaluator}
    {ahead behind : List Touch} {jobs : List Job} {fx fx' : List Effect}
    (hpass : MakesPass policy engine id ahead behind w boxes fx w₁ boxes₁)
    (hrest : Course policy id w₁ boxes₁ jobs fx' w' boxes') :
    Course policy id w boxes (.pass engine ahead behind :: jobs) (fx ++ fx') w' boxes'
  | touch {w w' : Worker} {boxes boxes' : Mailboxes} {jobs : List Job} {fx : List Effect}
    (t : Touch) (hrest : Course policy id w (boxes.modify id.number t.apply) jobs fx w' boxes') :
    Course policy id w boxes (.touch t :: jobs) fx w' boxes'
  | others {w w' : Worker} {boxes boxes' stirred : Mailboxes} {jobs : List Job} {fx : List Effect}
    (hbox : stirred.get? id.number = boxes.get? id.number)
    (hrest : Course policy id w stirred jobs fx w' boxes') :
    Course policy id w boxes jobs fx w' boxes'

section Courses

variable {policy : DeliveryPolicy} {w w' : Worker} {id : ConnectionId} {boxes boxes' : Mailboxes}
  {o : Outlook} {jobs : List Job} {fx : List Effect}

/-- **An outlook evolves by itself**: jobs make of it what `Outlook.after` says. -/
theorem Shows.course (h : Shows w boxes id o)
    (hnew : ∀ id' ∈ Job.newcomers jobs, id'.number ≠ id.number)
    (hcourse : Course policy id w boxes jobs fx w' boxes') :
    Shows w' boxes' id (o.after policy id jobs).1 ∧
      placed id (fx.map .effect) = (o.after policy id jobs).2 := by
  induction hcourse generalizing o with
  | done => exact ⟨h, rfl⟩
  | @command w w' boxes boxes' ev command r jobs fx hhandle hrest ih =>
    obtain ⟨hnext, hnothing⟩ := h.handle hhandle fun id' hid' =>
      hnew id' (List.mem_filterMap.2 ⟨.command ev command, .head _, hid'⟩)
    obtain ⟨hlast, hsent⟩ := ih hnext fun id' hid' =>
      hnew id' (List.filterMap_subset _ (List.subset_cons_self _ _) hid')
    exact ⟨hlast, by rw [placed_effects_append, hnothing, hsent]; rfl⟩
  | pass hpass hrest ih =>
    obtain ⟨hnext, hsent⟩ := h.makesPass hpass
    obtain ⟨hlast, hsent'⟩ := ih hnext hnew
    exact ⟨hlast, by rw [placed_effects_append, hsent, hsent']; rfl⟩
  | touch t hrest ih =>
    refine ih (h.with_box ?_) hnew
    rw [Mailboxes.get?_modify, if_pos rfl, h.box_eq]
    rfl
  | others hbox hrest ih => exact ih (h.with_box (hbox.trans h.box_eq)) hnew

/-- **Two workers that look the same to a connection are the same to it for good.** -/
theorem Course.placed_eq {v v' : Worker} {rest rest' : Mailboxes} {fx' : List Effect}
    (h : Shows w boxes id o) (h' : Shows v rest id o)
    (hnew : ∀ id' ∈ Job.newcomers jobs, id'.number ≠ id.number)
    (hcourse : Course policy id w boxes jobs fx w' boxes')
    (hcourse' : Course policy id v rest jobs fx' v' rest') :
    placed id (fx.map .effect) = placed id (fx'.map .effect) ∧
      boxes'.get? id.number = rest'.get? id.number := by
  obtain ⟨hlast, hsent⟩ := h.course hnew hcourse
  obtain ⟨hlast', hsent'⟩ := h'.course hnew hcourse'
  exact ⟨hsent.trans hsent'.symm, hlast.box_eq.trans hlast'.box_eq.symm⟩

/-- **Whoever has no seat is sent nothing any more.** -/
theorem Course.placed_eq_nil (h : Shows w boxes id o) (hseat : o.seat = none)
    (hnew : ∀ id' ∈ Job.newcomers jobs, id'.number ≠ id.number)
    (hcourse : Course policy id w boxes jobs fx w' boxes') : placed id (fx.map .effect) = [] :=
  (h.course hnew hcourse).2.trans (Outlook.after_snd_of_unseated hseat)

end Courses

end Worker

/-! ## Members -/

/-- Between two jobs a member sits in its channel, and nowhere else. -/
theorem Enrolled.sits {s : Stream} {log : List Event} (h : Enrolled s log)
    (hphase : s.worker.phase = .idle) {place : Place} {id : ConnectionId}
    (hid : id ∈ s.worker.index.membersAt place) : s.worker.Sits id (some place) := by
  have hrunning : s.worker.phase ≠ .stopped := by simp [hphase]
  have hroster := Worker.roster_of_push?_eq_none (w := s.worker) (by rw [hphase]; rfl)
  rw [← hroster] at hid
  have hown := h.known_of_mem hrunning hid
  have hself : ∀ {place'} {id'}, id' ∈ s.worker.roster place' → id'.number = id.number →
      id' = id := by
    intro place' id' hid' hnumber
    have hown' := h.known_of_mem hrunning hid'
    obtain ⟨stream, number⟩ := id
    obtain ⟨stream', number'⟩ := id'
    obtain rfl : stream' = stream := hown'.1.trans hown.1.symm
    obtain rfl : number' = number := hnumber
    rfl
  intro place'
  by_cases hplace : place = place'
  · subst hplace
    have hfilter : (s.worker.roster place).filter (·.number = id.number) =
        (s.worker.roster place).filter (· = id) :=
      List.filter_congr fun id' hid' =>
        decide_eq_decide.2 ⟨hself hid', congrArg ConnectionId.number⟩
    rw [if_pos rfl, hfilter, List.filter_eq, List.count_eq_one_of_mem (h.roster_nodup place) hid]
    rfl
  · rw [if_neg fun hc => hplace (Option.some.inj hc), List.filter_eq_nil_iff]
    intro id' hid' hnumber
    obtain rfl := hself hid' (of_decide_eq_true hnumber)
    exact hplace (h.place_unique hrunning hid hid')

/-- Between two jobs a member has its channel and its mailbox to look forward to. -/
theorem Run.shows {s : Stream} {log : List Event} (h : Run s log)
    (hphase : s.worker.phase = .idle) {place : Place} {c : Channel} {id : ConnectionId}
    (hfind : s.worker.index.find? place.1 place.2 = some c) (hmember : id ∈ c.members) :
    ∃ box, s.worker.Shows s.mailboxes id ⟨some (.ofChannel place c), box⟩ := by
  have hid : id ∈ s.worker.index.membersAt place := by
    rwa [ChannelIndex.membersAt_of_find? hfind]
  have hroster := Worker.roster_of_push?_eq_none (w := s.worker) (by rw [hphase]; rfl) place
  have hknown := h.enrolled.known_of_mem (by simp [hphase]) (hroster ▸ hid)
  obtain ⟨box, hbox⟩ := Mailboxes.exists_get?_of_lt hknown.2
  refine ⟨box, hphase, h.enrolled.sits hphase hid, ?_, hbox⟩
  rintro _ ⟨⟩
  exact ⟨c, hfind, rfl⟩

end FlagFanout
