import FlagFanout.Proofs.Stream.Leaving
import FlagFanout.Proofs.Stream.VisitingOrder

/-!
# What a connection has to look forward to

A connection shares its worker with all others, and yet what it gets depends on very little: on
where it sits, that is on its channel with what was last delivered there, and on its own mailbox.
This is its `Outlook`.

An outlook evolves by itself. `Outlook.after` says what the jobs of the worker make of it and which
messages the connection is sent meanwhile, without a word about the others: who they are, how they
read, in which order the channels are visited and how often the worker waits for somebody else.

In the middle of a pass, `Worker.InStore` tells where the connection will sit and what it will be
offered in the rest of the pass. Every step out of its turn keeps that (`Worker.InStore.advance`),
and at its turn the promise is made good (`Worker.InStore.turn`).
-/

namespace FlagFanout

/-! ## Outlooks -/

/-- Where a connection sits: the place of its channel, what was last delivered there, and to which
context. -/
structure Seat where
  place : Place
  last : Snapshot
  context : Option Context

namespace Seat

/-- The seat of the members of a channel. -/
def ofChannel (place : Place) (c : Channel) : Seat := ⟨place, c.last, c.context⟩

/-- The seat after its channel was visited, and the message to push if a value moved. -/
def visit (engine : Place → Evaluator) (seat : Seat) : Seat × Option Message :=
  match seat.last.refresh (engine seat.place) seat.context with
  | (_, none) => (seat, none)
  | (last, some m) => ({ seat with last }, some m)

variable {engine : Place → Evaluator} {seat : Seat}

@[simp] theorem visit_place : (seat.visit engine).1.place = seat.place := by
  unfold visit
  split <;> rfl

theorem visit_of_quiet (h : (seat.last.refresh (engine seat.place) seat.context).2 = none) :
    seat.visit engine = (seat, none) := by
  unfold visit
  split
  · rfl
  · next heq => simp [heq] at h

theorem visit_of_moved {last : Snapshot} {m : Message}
    (h : seat.last.refresh (engine seat.place) seat.context = (last, some m)) :
    seat.visit engine = ({ seat with last }, some m) := by
  unfold visit
  rw [h]

end Seat

/-- What a client does to the mailbox of its connection. -/
inductive Touch where
  /-- It takes the first message, if there is one. -/
  | take
  /-- It drops the receiving end. -/
  | leave

/-- The mailbox after its client touched it. -/
def Touch.apply : Touch → Mailbox → Mailbox
  | take, b => { b with messages := b.messages.tail }
  | leave, b => { b with listening := false, messages := [] }

/-- The mailbox after its client touched it several times. -/
def Mailbox.touched (b : Mailbox) (touches : List Touch) : Mailbox :=
  touches.foldl (fun b t => t.apply b) b

/-- What happens to a worker, as far as it concerns one connection. -/
inductive Job where
  /-- The worker carries out a command. -/
  | command (ev : Evaluator) (command : Command)
  /-- The worker makes a pass over all channels. The client does so much to the mailbox before it is
  the connection's turn, and so much afterwards. -/
  | pass (engine : Place → Evaluator) (ahead behind : List Touch)
  /-- The client does something to the mailbox between two jobs of the worker. -/
  | touch (t : Touch)

/-- The connections that some jobs ask to register. -/
def Job.newcomers (jobs : List Job) : List ConnectionId :=
  jobs.filterMap fun
    | .command _ c => c.newcomer?
    | .pass _ _ _ => none
    | .touch _ => none

/-- All that a connection has to look forward to: its seat, if it is a member of a channel, and its
mailbox. -/
structure Outlook where
  seat : Option Seat
  box : Mailbox

namespace Outlook

/-- The outlook after the client touched the mailbox. -/
def touched (o : Outlook) (touches : List Touch) : Outlook :=
  { o with box := o.box.touched touches }

/-- The outlook after the channel was visited, and the message to push if a value moved. -/
def visit (engine : Place → Evaluator) (o : Outlook) : Outlook × Option Message :=
  match o.seat with
  | none => (o, none)
  | some seat => ({ o with seat := some (seat.visit engine).1 }, (seat.visit engine).2)

/-- The outlook after a message was offered, and what was sent. A connection that is gone loses its
seat. -/
def offer (policy : DeliveryPolicy) (m : Message) (o : Outlook) : Outlook × List Message :=
  let out := o.box.attempt policy
  (⟨if out = .disconnected then none else o.seat, o.box.offer policy m⟩,
    if out = .sent then [m] else [])

/-- The outlook after a pass, and what was sent. -/
def pass (policy : DeliveryPolicy) (engine : Place → Evaluator) (ahead behind : List Touch)
    (o : Outlook) : Outlook × List Message :=
  let visited := o.visit engine
  match visited.2 with
  | none => (visited.1.touched (ahead ++ behind), [])
  | some m =>
    let offered := (visited.1.touched ahead).offer policy m
    (offered.1.touched behind, offered.2)

/-- The outlook after a command: only who is closed where it sits loses its seat. -/
def command (id : ConnectionId) (o : Outlook) : Command → Outlook
  | .established _ _ _ _ => o
  | .closed id' selector discriminator =>
    if id' = id ∧ o.seat.map (·.place) = some (selector, discriminator) then { o with seat := none }
    else o

/-- The outlook after some jobs, and what was sent. -/
def after (policy : DeliveryPolicy) (id : ConnectionId) (o : Outlook) :
    List Job → Outlook × List Message
  | [] => (o, [])
  | .command _ c :: jobs => (o.command id c).after policy id jobs
  | .pass engine ahead behind :: jobs =>
    let passed := o.pass policy engine ahead behind
    let last := passed.1.after policy id jobs
    (last.1, passed.2 ++ last.2)
  | .touch t :: jobs => (o.touched [t]).after policy id jobs

variable {policy : DeliveryPolicy} {engine : Place → Evaluator} {ahead behind : List Touch}
  {o : Outlook}

@[simp] theorem visit_box : (o.visit engine).1.box = o.box := by
  unfold visit
  split <;> rfl

theorem pass_of_quiet (h : (o.visit engine).2 = none) :
    o.pass policy engine ahead behind = ((o.visit engine).1.touched (ahead ++ behind), []) := by
  simp only [pass, h]

theorem pass_of_moved {m : Message} (h : (o.visit engine).2 = some m) :
    o.pass policy engine ahead behind =
      let offered := ((o.visit engine).1.touched ahead).offer policy m
      (offered.1.touched behind, offered.2) := by
  simp only [pass, h]

theorem command_seat_of_unseated {id : ConnectionId} (h : o.seat = none) (c : Command) :
    (o.command id c).seat = none := by
  cases c with
  | established => exact h
  | closed id' selector discriminator =>
    simp only [command]
    split
    · rfl
    · exact h

/-- Whoever has no seat is sent nothing. -/
theorem after_snd_of_unseated {id : ConnectionId} {jobs : List Job} (h : o.seat = none) :
    (o.after policy id jobs).2 = [] := by
  induction jobs generalizing o with
  | nil => rfl
  | cons job jobs ih =>
    cases job with
    | command ev c => exact ih (command_seat_of_unseated h c)
    | pass engine ahead behind =>
      have hvisit : o.visit engine = (o, none) := by
        unfold visit
        rw [h]
      have hpass : o.pass policy engine ahead behind = (o.touched (ahead ++ behind), []) := by
        rw [pass_of_quiet (by rw [hvisit]), hvisit]
      change (o.pass policy engine ahead behind).2 ++ _ = []
      rw [hpass]
      exact ih h
    | touch t => exact ih h

end Outlook

/-! ## Where a connection sits -/

namespace Worker

/-- On the rosters the connection is at this place and nowhere else, once, and nobody else there has
its number. -/
def Sits (w : Worker) (id : ConnectionId) (place? : Option Place) : Prop :=
  ∀ place, (w.roster place).filter (·.number = id.number) =
    if place? = some place then [id] else []

namespace Sits

variable {w w' : Worker} {id id' : ConnectionId} {place? : Option Place} {place : Place}

theorem eq_of_mem (h : w.Sits id place?) (hid' : id' ∈ w.roster place)
    (hnumber : id'.number = id.number) : id' = id ∧ place? = some place := by
  have hmem : id' ∈ (w.roster place).filter (·.number = id.number) :=
    List.mem_filter.2 ⟨hid', decide_eq_true hnumber⟩
  rw [h place] at hmem
  split at hmem
  · next hplace => exact ⟨List.mem_singleton.1 hmem, hplace⟩
  · cases hmem

theorem mem (h : w.Sits id (some place)) : id ∈ w.roster place := by
  have hmem : id ∈ (w.roster place).filter (·.number = id.number) := by
    rw [h place, if_pos rfl]
    exact List.mem_singleton_self id
  exact (List.mem_filter.1 hmem).1

theorem congr (h : w.Sits id place?) (hroster : ∀ place, w'.roster place = w.roster place) :
    w'.Sits id place? := by
  intro place
  rw [hroster]
  exact h place

/-- At its turn nobody with the number of a connection was served, and nobody else waits. -/
theorem filter_eq_nil {q : Push} {waiting : List ConnectionId} (h : w.Sits id (some q.place))
    (hpush : w.phase.push? = some q) (hwaiting : q.waiting = id :: waiting) :
    q.served.filter (·.number = id.number) = [] ∧ waiting.filter (·.number = id.number) = [] := by
  have hthere := h q.place
  rw [if_pos rfl, roster_of_push? hpush, if_pos rfl, hwaiting] at hthere
  simp only [List.filter_append, List.filter_cons, decide_true, if_true] at hthere
  have hlength := congrArg List.length hthere
  rw [List.length_append, List.length_cons, List.length_singleton] at hlength
  exact ⟨List.eq_nil_of_length_eq_zero (by omega), List.eq_nil_of_length_eq_zero (by omega)⟩

end Sits

end Worker

/-- A channel that kept what it holds and has a member offers the same seat. -/
theorem ChannelIndex.Keeps.seat_eq {i j : ChannelIndex} (h : i.Keeps j) {place : Place}
    {c : Channel} {id : ConnectionId} (hfind : i.find? place.1 place.2 = some c)
    (hid : id ∈ j.membersAt place) :
    ∃ c', j.find? place.1 place.2 = some c' ∧
      Seat.ofChannel place c' = Seat.ofChannel place c := by
  obtain ⟨c', hfind', -⟩ := ChannelIndex.exists_find?_of_mem_membersAt hid
  obtain ⟨c₀, hfind₀, hlast, hcontext⟩ := h place c' hfind'
  obtain rfl : c₀ = c := Option.some.inj (hfind₀.symm.trans hfind)
  exact ⟨c', hfind', by rw [Seat.ofChannel, hlast, hcontext]; rfl⟩

namespace Worker

/-! ## What the rest of a pass has in store -/

/-- What becomes of the seat of a connection in the rest of a pass, unless the connection is found
gone, and which message it will be offered. -/
inductive Foresees (engine : Place → Evaluator) (w : Worker) (id : ConnectionId) :
    Option Seat → Option Message → Prop
  /-- Whoever has no seat is offered nothing. -/
  | outside : Foresees engine w id none none
  /-- The channel is still to be visited. -/
  | coming {place : Place} {c : Channel} (htodo : place ∈ w.phase.todo)
    (hfind : w.index.find? place.1 place.2 = some c) :
    Foresees engine w id (some ((Seat.ofChannel place c).visit engine).1)
      ((Seat.ofChannel place c).visit engine).2
  /-- The channel was visited, and its message did not reach the connection yet. -/
  | due {push : Push} {c : Channel} (hpush : w.phase.push? = some push)
    (hid : id ∈ push.waiting) (hfind : w.index.find? push.place.1 push.place.2 = some c) :
    Foresees engine w id (some (.ofChannel push.place c)) (some push.message)
  /-- The turn of the connection is over, or will not come. -/
  | past {place : Place} {c : Channel} (htodo : place ∉ w.phase.todo)
    (hid : ∀ push, w.phase.push? = some push → id ∉ push.waiting)
    (hfind : w.index.find? place.1 place.2 = some c) :
    Foresees engine w id (some (.ofChannel place c)) none

/-- What a pass has in store for a connection. -/
structure InStore (engine : Place → Evaluator) (w : Worker) (id : ConnectionId)
    (seat : Option Seat) (m : Option Message) : Prop where
  sits : w.Sits id (seat.map (·.place))
  todo_nodup : w.phase.todo.Nodup
  /-- No channel is visited twice. -/
  push_notMem : ∀ push, w.phase.push? = some push → push.place ∉ w.phase.todo
  foresees : Foresees engine w id seat m

namespace InStore

variable {engine : Place → Evaluator} {w : Worker} {id : ConnectionId} {seat : Option Seat}
  {m : Option Message}

/-- Another phase of a pass with the same places to go to and the same push. -/
theorem with_phase (h : InStore engine w id seat m) {phase : Phase}
    (htodo : phase.todo = w.phase.todo) (hpush : phase.push? = w.phase.push?) :
    InStore engine { w with phase } id seat m where
  sits := h.sits.congr (roster_congr hpush fun _ => rfl)
  todo_nodup := htodo ▸ h.todo_nodup
  push_notMem push hp := by
    change push.place ∉ phase.todo
    rw [htodo]
    exact h.push_notMem push (hpush ▸ hp)
  foresees := by
    cases h.foresees with
    | outside => exact .outside
    | coming hmem hfind => exact .coming (htodo ▸ hmem) hfind
    | due hp hid hfind => exact .due (hpush.trans hp) hid hfind
    | past hmem hid hfind =>
      exact .past (htodo ▸ hmem) (fun push hp => hid push (hpush ▸ hp)) hfind

/-- Where a connection sits, there is a channel. -/
theorem exists_channel {place : Place} (h : InStore engine w id seat m)
    (hplace : seat.map (·.place) = some place) :
    ∃ c, w.index.find? place.1 place.2 = some c := by
  cases h.foresees with
  | outside => cases hplace
  | coming hmem hfind =>
    rw [Option.map_some, Seat.visit_place] at hplace
    cases hplace
    exact ⟨_, hfind⟩
  | due hpush hid hfind =>
    cases hplace
    exact ⟨_, hfind⟩
  | past hmem hid hfind =>
    cases hplace
    exact ⟨_, hfind⟩

section Visits

variable {p : Pass} {place : Place} {todo : List Place}

theorem pass (h : InStore engine w id seat m) (hphase : w.phase = .visiting p)
    (htodo : p.todo = place :: todo)
    (hquiet : ∀ c, w.index.find? place.1 place.2 = some c →
      (c.last.refresh (engine place) c.context).2 = none) :
    InStore engine { w with phase := .visiting { p with todo } } id seat m := by
  have hpush : w.phase.push? = none := by rw [hphase]; rfl
  have hplaces : w.phase.todo = place :: todo := by rw [hphase]; exact htodo
  have hnodup := h.todo_nodup
  rw [hplaces] at hnodup
  obtain ⟨hplace, hrest⟩ := List.nodup_cons.1 hnodup
  refine ⟨h.sits.congr (roster_congr hpush.symm fun _ => rfl), hrest,
    fun _ hp => (nomatch hp), ?_⟩
  cases h.foresees with
  | outside => exact .outside
  | @coming place' c hmem hfind =>
    rw [hplaces] at hmem
    rcases List.mem_cons.1 hmem with rfl | hmem
    · rw [Seat.visit_of_quiet (hquiet c hfind)]
      exact .past hplace (fun _ hp => nomatch hp) hfind
    · exact .coming hmem hfind
  | due hp =>
    rw [hpush] at hp
    cases hp
  | past hmem hid hfind =>
    rw [hplaces] at hmem
    exact .past (fun hin => hmem (.tail _ hin)) (fun _ hp => nomatch hp) hfind

/-- Where a push begins, everybody is still to be served. -/
theorem roster_produce (hpush : w.phase.push? = none) {c : Channel}
    (hfind : w.index.find? place.1 place.2 = some c) {last : Snapshot} {m' : Message}
    (place' : Place) :
    roster
      { w with
        index := w.index.put place.1 place.2 { c with last }
        phase := .pushing { p with todo } ⟨place, m', [], c.members, .zero⟩ } place' =
      w.roster place' := by
  rw [roster_of_push? (w := { w with index := _, phase := _ }) rfl, roster_of_push?_eq_none hpush]
  change (if place = place' then c.members else _) = _
  by_cases heq : place = place'
  · rw [if_pos heq, ← heq, ChannelIndex.membersAt_of_find? hfind]
  · rw [if_neg heq, ChannelIndex.membersAt_put, if_neg (Ne.symm heq)]

theorem produce (h : InStore engine w id seat m) (hphase : w.phase = .visiting p)
    (htodo : p.todo = place :: todo) {c : Channel} {last : Snapshot} {m' : Message}
    (hfind : w.index.find? place.1 place.2 = some c)
    (hrefresh : c.last.refresh (engine place) c.context = (last, some m')) :
    InStore engine
      { w with
        index := w.index.put place.1 place.2 { c with last }
        phase := .pushing { p with todo } ⟨place, m', [], c.members, .zero⟩ } id seat m := by
  have hpush : w.phase.push? = none := by rw [hphase]; rfl
  have hplaces : w.phase.todo = place :: todo := by rw [hphase]; exact htodo
  have hnodup := h.todo_nodup
  rw [hplaces] at hnodup
  obtain ⟨hplace, hrest⟩ := List.nodup_cons.1 hnodup
  have hmembers : c.members = w.roster place := by
    rw [roster_of_push?_eq_none hpush, ChannelIndex.membersAt_of_find? hfind]
  have hother : ∀ {place' c'}, place' ≠ place → w.index.find? place'.1 place'.2 = some c' →
      (w.index.put place.1 place.2 { c with last }).find? place'.1 place'.2 = some c' := by
    intro place' c' hne hfind'
    rw [ChannelIndex.find?_put, if_neg hne, hfind']
  have hsits := h.sits
  refine ⟨h.sits.congr (roster_produce hpush hfind), hrest, ?_, ?_⟩
  · rintro _ ⟨⟩
    exact hplace
  cases h.foresees with
  | outside => exact .outside
  | @coming place' c' hmem hfind' =>
    rw [hplaces] at hmem
    by_cases heq : place' = place
    · subst heq
      obtain rfl : c' = c := Option.some.inj (hfind'.symm.trans hfind)
      rw [Option.map_some, Seat.visit_place] at hsits
      rw [Seat.visit_of_moved hrefresh]
      have hid : id ∈ c'.members := hmembers ▸ hsits.mem
      let pushed : Push := ⟨place', m', [], c'.members, .zero⟩
      change Foresees engine _ id (some (.ofChannel pushed.place { c' with last }))
        (some pushed.message)
      exact .due rfl hid (ChannelIndex.find?_put_self ..)
    · exact .coming ((List.mem_cons.1 hmem).resolve_left heq) (hother heq hfind')
  | due hp =>
    rw [hpush] at hp
    cases hp
  | @past place' c' hmem hid hfind' =>
    rw [hplaces] at hmem
    have hne : place' ≠ place := fun heq => hmem (heq ▸ .head _)
    refine .past (fun hin => hmem (.tail _ hin)) ?_ (hother hne hfind')
    rintro _ ⟨⟩ hin
    have hthere := (h.sits.eq_of_mem (hmembers ▸ hin) rfl).2
    exact hne (Option.some.inj hthere)

end Visits

theorem endPass {p : Pass} (h : InStore engine w id seat m) (hphase : w.phase = .visiting p)
    (htodo : p.todo = []) : InStore engine (w.endPass p).1 id seat m := by
  have hpush : w.phase.push? = none := by rw [hphase]; rfl
  have hplaces : w.phase.todo = [] := by rw [hphase]; exact htodo
  have hphase' : (w.endPass p).1.phase = .idle := endPass_phase ..
  have hpush' : (w.endPass p).1.phase.push? = none := by rw [hphase']; rfl
  have hplaces' : (w.endPass p).1.phase.todo = [] := by rw [hphase']; rfl
  have hsits : (w.endPass p).1.Sits id (seat.map (·.place)) := h.sits.congr fun place => by
    rw [roster_of_push?_eq_none hpush', endPass_index, membersAt_collected,
      roster_of_push?_eq_none hpush]
  refine ⟨hsits, hplaces' ▸ .nil, fun push hp => ?_, ?_⟩
  · rw [hpush'] at hp
    cases hp
  cases h.foresees with
  | outside => exact .outside
  | coming hmem =>
    rw [hplaces] at hmem
    cases hmem
  | due hp =>
    rw [hpush] at hp
    cases hp
  | @past place c hmem hid hfind =>
    have hin := hsits.mem
    rw [roster_of_push?_eq_none hpush'] at hin
    have hkeeps : w.index.Keeps (w.endPass p).1.index := by
      rw [endPass_index]
      exact keeps_collected _ _
    obtain ⟨c', hfind', hseat⟩ := hkeeps.seat_eq hfind hin
    rw [← hseat]
    refine .past (hplaces' ▸ List.not_mem_nil) (fun push hp => ?_) hfind'
    rw [hpush'] at hp
    cases hp

section Pushes

variable {p : Pass} {q : Push}

/-- Nobody moves when a push ends. -/
theorem sits_endPush (h : InStore engine w id seat m) (hpush : w.phase.push? = some q)
    (hwaiting : q.waiting = []) : (w.endPush p q).1.Sits id (seat.map (·.place)) := by
  have hpush' : (w.endPush p q).1.phase.push? = none := rfl
  have hroster : ∀ place, w.roster place =
      if q.place = place then q.served else w.index.membersAt place := by
    intro place
    rw [roster_of_push? hpush, hwaiting, List.append_nil]
  intro place
  rw [roster_of_push?_eq_none hpush', ← h.sits place, hroster]
  cases hfind : w.index.find? q.place.1 q.place.2 with
  | some c =>
    rw [endPush_of_find? hfind]
    change List.filter _ ((w.index.put q.place.1 q.place.2 _).membersAt place) = _
    rw [ChannelIndex.membersAt_put]
    by_cases heq : q.place = place
    · rw [if_pos heq, if_pos heq.symm]
    · rw [if_neg heq, if_neg (Ne.symm heq)]
  | none =>
    have hnone : ¬seat.map (·.place) = some q.place := fun hplace => by
      obtain ⟨c, hc⟩ := h.exists_channel hplace
      cases hfind.symm.trans hc
    rw [endPush_of_find?_eq_none hfind]
    change List.filter _ (w.index.membersAt place) = _
    by_cases heq : q.place = place
    · have hserved := h.sits q.place
      rw [if_neg hnone, hroster, if_pos rfl] at hserved
      rw [if_pos heq, hserved, ← heq, ChannelIndex.membersAt, hfind]
      rfl
    · rw [if_neg heq]

theorem endPush (h : InStore engine w id seat m) (hphase : w.phase = .pushing p q)
    (hwaiting : q.waiting = []) : InStore engine (w.endPush p q).1 id seat m := by
  have hpush : w.phase.push? = some q := by rw [hphase]; rfl
  have hpush' : (w.endPush p q).1.phase.push? = none := rfl
  have hplaces : (w.endPush p q).1.phase.todo = w.phase.todo := by rw [hphase]; rfl
  have hsits : (w.endPush p q).1.Sits id (seat.map (·.place)) := h.sits_endPush hpush hwaiting
  have hnobody : ∀ push, (w.endPush p q).1.phase.push? ≠ some push := fun push hp => by
    rw [hpush'] at hp
    cases hp
  refine ⟨hsits, hplaces ▸ h.todo_nodup, fun push hp => absurd hp (hnobody push), ?_⟩
  cases h.foresees with
  | outside => exact .outside
  | @coming place c hmem hfind =>
    have hne : place ≠ q.place := fun heq => h.push_notMem q hpush (heq ▸ hmem)
    exact .coming (hplaces ▸ hmem) ((find?_endPush_of_ne p q hne).trans hfind)
  | due hp hid =>
    obtain rfl := Option.some.inj (hp.symm.trans hpush)
    rw [hwaiting] at hid
    cases hid
  | @past place c hmem hid hfind =>
    have hin := hsits.mem
    rw [roster_of_push?_eq_none hpush'] at hin
    obtain ⟨c', hfind', hseat⟩ := (keeps_endPush w p q).seat_eq hfind hin
    rw [← hseat]
    exact .past (hplaces ▸ hmem) (fun push hp => absurd hp (hnobody push)) hfind'

/-- Somebody else is served. -/
theorem serve_other (h : InStore engine w id seat m) {q' : Push} {id' : ConnectionId}
    {out : Attempt} (hphase : w.phase = .pushing p q) (hwaiting : q.waiting = id' :: q'.waiting)
    (hplace : q'.place = q.place) (hmessage : q'.message = q.message)
    (hserved : q'.served = if out = .disconnected then q.served else q.served ++ [id'])
    (hne : id' ≠ id) : InStore engine { w with phase := .pushing p q' } id seat m := by
  have hpush : w.phase.push? = some q := by rw [hphase]; rfl
  have hplaces : (Phase.pushing p q').todo = w.phase.todo := by rw [hphase]; rfl
  have hnumber : id'.number ≠ id.number := fun heq =>
    hne (h.sits.eq_of_mem (mem_roster_of_waiting hpush hwaiting) heq).1
  refine ⟨fun place => ?_, hplaces ▸ h.todo_nodup, ?_, ?_⟩
  · rw [← h.sits place, roster_of_push? hpush, roster_of_push? (w := { w with phase := _ }) rfl,
      hplace]
    by_cases heq : q.place = place
    · rw [if_pos heq, if_pos heq, hserved, hwaiting]
      by_cases hgone : out = .disconnected
      · simp [hgone, hnumber]
      · simp [hgone, hnumber]
    · rw [if_neg heq, if_neg heq]
  · rintro _ ⟨⟩
    change q'.place ∉ (Phase.pushing p q').todo
    rw [hplaces, hplace]
    exact h.push_notMem q hpush
  cases h.foresees with
  | outside => exact .outside
  | coming hmem hfind => exact .coming (hplaces ▸ hmem) hfind
  | due hp hid hfind =>
    obtain rfl := Option.some.inj (hp.symm.trans hpush)
    rw [hwaiting] at hid
    have hid' : id ∈ q'.waiting := (List.mem_cons.1 hid).resolve_left hne.symm
    rw [← hplace, ← hmessage]
    exact .due rfl hid' (hplace ▸ hfind)
  | past hmem hid hfind =>
    refine .past (hplaces ▸ hmem) ?_ hfind
    rintro _ ⟨⟩ hin
    exact hid q hpush (hwaiting ▸ .tail _ hin)

/-- Whoever waits for a message sits where it is pushed and has it in store. -/
theorem exists_due (h : InStore engine w id seat m) (hpush : w.phase.push? = some q)
    (hid : id ∈ q.waiting) :
    ∃ c, w.index.find? q.place.1 q.place.2 = some c ∧ seat = some (.ofChannel q.place c) ∧
      m = some q.message := by
  have hroster : id ∈ w.roster q.place := by
    rw [roster_of_push? hpush, if_pos rfl]
    exact List.mem_append_right _ hid
  have hplace : seat.map (·.place) = some q.place := (h.sits.eq_of_mem hroster rfl).2
  cases h.foresees with
  | outside => cases hplace
  | coming hmem hfind =>
    rw [Option.map_some, Seat.visit_place] at hplace
    exact absurd (Option.some.inj hplace ▸ hmem) (h.push_notMem q hpush)
  | due hp hid' hfind =>
    obtain rfl := Option.some.inj (hp.symm.trans hpush)
    exact ⟨_, hfind, rfl, rfl⟩
  | past hmem hnot hfind => exact absurd hid (hnot q hpush)

/-- The turn of the connection comes. -/
theorem serve_self (h : InStore engine w id seat m) {q' : Push} {out : Attempt}
    (hphase : w.phase = .pushing p q) (hwaiting : q.waiting = id :: q'.waiting)
    (hplace : q'.place = q.place)
    (hserved : q'.served = if out = .disconnected then q.served else q.served ++ [id]) :
    InStore engine { w with phase := .pushing p q' } id
      (if out = .disconnected then none else seat) none := by
  have hpush : w.phase.push? = some q := by rw [hphase]; rfl
  have hplaces : (Phase.pushing p q').todo = w.phase.todo := by rw [hphase]; rfl
  have hvisited : q'.place ∉ (Phase.pushing p q').todo := by
    rw [hplaces, hplace]
    exact h.push_notMem q hpush
  obtain ⟨c, hfind, rfl, -⟩ := h.exists_due hpush (hwaiting ▸ .head _)
  have hsits : w.Sits id (some q.place) := h.sits
  obtain ⟨hbefore, hbehind⟩ := hsits.filter_eq_nil hpush hwaiting
  have hgone : id ∉ q'.waiting := fun hin =>
    List.filter_eq_nil_iff.1 hbehind id hin (decide_eq_true rfl)
  have hroster : ∀ place, (roster { w with phase := .pushing p q' } place).filter
      (·.number = id.number) = if q.place = place ∧ out ≠ .disconnected then [id] else [] := by
    intro place
    rw [roster_of_push? (w := { w with phase := _ }) rfl, hplace]
    by_cases heq : q.place = place
    · rw [if_pos heq, List.filter_append, hbehind, List.append_nil, hserved]
      by_cases hout : out = .disconnected
      · simp [hout, hbefore]
      · simp [hout, heq, List.filter_append, hbefore]
    · have helsewhere := hsits place
      rw [roster_of_push? hpush, if_neg heq] at helsewhere
      rw [if_neg heq, if_neg fun hc => heq hc.1]
      exact helsewhere.trans (if_neg fun hc => heq (Option.some.inj hc))
  refine ⟨fun place => (hroster place).trans ?_, hplaces ▸ h.todo_nodup, ?_, ?_⟩
  · by_cases hout : out = .disconnected <;> simp [hout, Seat.ofChannel]
  · rintro _ ⟨⟩
    exact hvisited
  · split
    · exact .outside
    · refine .past (hplace ▸ hvisited) ?_ hfind
      rintro _ ⟨⟩
      exact hgone

end Pushes

end InStore

/-! ## Turns -/

/-- The next step of the worker offers the connection what is pushed. -/
def IsTurn (policy : DeliveryPolicy) (w : Worker) (boxes : Mailboxes) (id : ConnectionId) : Prop :=
  ∃ pass push waiting, w.phase = .pushing pass push ∧ push.waiting = id :: waiting ∧
    boxes.attempt policy id.number ≠ .waiting

namespace InStore

variable {policy : DeliveryPolicy} {engine : Place → Evaluator} {w : Worker} {id : ConnectionId}
  {seat : Option Seat} {m : Option Message} {boxes : Mailboxes} {r : Result}

/-- **A step out of its turn is nothing to a connection.** -/
theorem advance (h : InStore engine w id seat m) (hadvance : Advance policy engine w boxes r)
    (hturn : ¬w.IsTurn policy boxes id) :
    InStore engine r.worker id seat m ∧ r.mailboxes.get? id.number = boxes.get? id.number ∧
      placed id (r.effects.map .effect) = [] := by
  cases hadvance with
  | pass hphase htodo hquiet => exact ⟨h.pass hphase htodo hquiet, rfl, rfl⟩
  | produce hphase htodo hfind hrefresh =>
    exact ⟨h.produce hphase htodo hfind hrefresh, rfl, rfl⟩
  | endPass hphase htodo =>
    refine ⟨h.endPass hphase htodo, rfl, ?_⟩
    rw [endPass_snd, placed_closings]
  | @serve p q id' waiting out hphase hwaiting hattempt hout =>
    have hne : id' ≠ id := by
      rintro rfl
      exact hturn ⟨p, q, waiting, hphase, hwaiting, hattempt ▸ hout⟩
    have hpush : w.phase.push? = some q := by rw [hphase]; rfl
    have hnumber : id.number ≠ id'.number := fun heq =>
      hne (h.sits.eq_of_mem (mem_roster_of_waiting hpush hwaiting) heq.symm).1
    refine ⟨h.serve_other hphase hwaiting rfl rfl rfl hne, Mailboxes.get?_offer_of_ne hnumber, ?_⟩
    rw [placed_trace, if_neg fun hc => hne hc.1]
  | stall hphase => exact ⟨h.with_phase (by rw [hphase]; rfl) (by rw [hphase]; rfl), rfl, rfl⟩
  | resume hphase => exact ⟨h.with_phase (by rw [hphase]; rfl) (by rw [hphase]; rfl), rfl, rfl⟩
  | endPush hphase hwaiting =>
    refine ⟨h.endPush hphase hwaiting, rfl, ?_⟩
    rw [endPush_snd, placed_report]

/-- **At its turn a connection is offered what was in store for it.** -/
theorem turn (h : InStore engine w id seat m) (hadvance : Advance policy engine w boxes r)
    (hturn : w.IsTurn policy boxes id) {box : Mailbox} (hbox : boxes.get? id.number = some box) :
    ∃ message, m = some message ∧
      let offered := Outlook.offer policy message ⟨seat, box⟩
      InStore engine r.worker id offered.1.seat none ∧
        r.mailboxes.get? id.number = some offered.1.box ∧
        placed id (r.effects.map .effect) = offered.2 := by
  obtain ⟨p, q, waiting, hphase, hwaiting, hout⟩ := hturn
  cases hadvance with
  | pass hphase' | produce hphase' | endPass hphase' | resume hphase' =>
    rw [hphase] at hphase'
    cases hphase'
  | endPush hphase' hwaiting' =>
    rw [hphase] at hphase'
    cases hphase'
    rw [hwaiting] at hwaiting'
    cases hwaiting'
  | stall hphase' hwaiting' hstall =>
    rw [hphase] at hphase'
    cases hphase'
    rw [hwaiting] at hwaiting'
    cases hwaiting'
    exact absurd hstall hout
  | serve hphase' hwaiting' hattempt =>
    rw [hphase] at hphase'
    cases hphase'
    rw [hwaiting] at hwaiting'
    cases hwaiting'
    rw [Mailboxes.attempt_of_get? hbox] at hattempt
    subst hattempt
    have hpush : w.phase.push? = some q := by rw [hphase]; rfl
    obtain ⟨c, -, -, hm⟩ := h.exists_due hpush (hwaiting ▸ .head _)
    refine ⟨q.message, hm, h.serve_self hphase hwaiting rfl rfl, ?_, ?_⟩
    · change (boxes.modify id.number _).get? id.number = _
      rw [Mailboxes.get?_modify, if_pos rfl, hbox]
      rfl
    · rw [placed_trace]
      simp [Outlook.offer]

end InStore

end Worker

end FlagFanout
