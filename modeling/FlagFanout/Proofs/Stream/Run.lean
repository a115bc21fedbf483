import FlagFanout.Proofs.Stream.Worker
import FlagFanout.Stream

/-!
# Runs of a stream

A stream moves when a client opens, closes, reads or drops a connection, when it is closed, and
when its worker takes a step. `Stream.act?` is one such act, built from the operations of the
stream; the worker's engine is given anew with every step, so between two steps anything may have
happened to it, and a pass may visit the channels in any order (`Stream.begin?`). `Run s log` says
that a new stream came to `s` by some acts, in whatever order, and that `log` is what happened on
the way.

What happened is told by `Event`s: the effects of the worker, and remarks on the step in which
they occurred (`Stream.remark`). The remarks are read off the state before the step and change
nothing.

`Turn` lists what a step of the worker can be, and `turn_of_step?` says that there is nothing else.
Every invariant of a stream goes by its cases.
-/

namespace FlagFanout

/-! ## Events -/

/-- What happens to a stream and its connections. -/
inductive Event where
  /-- A connection was opened for a context. -/
  | opened (c : Connection) (context : Option Context)
  /-- The worker took a connection whose receiver existed into a channel, and the channel's state
  at that moment was `m`. -/
  | joined (id : ConnectionId) (place : Place) (m : Message)
  /-- The worker carried out a command to close a connection. -/
  | closed (id : ConnectionId) (place : Place)
  /-- A channel found that something moved, and began to push `m`. -/
  | produced (place : Place) (m : Message)
  /-- A member of a channel was offered what is pushed, and `box` was its mailbox at that
  moment. -/
  | offered (id : ConnectionId) (m : Message) (box : Mailbox)
  /-- A connection took a message out of its mailbox. -/
  | taken (id : ConnectionId) (m : Message)
  | effect (f : Effect)

namespace Stream

/-- What there is to say about the next step of the worker besides its effects. -/
def remark (e : Engine) (s : Stream) (next : Step) : List Event :=
  if s.closed && s.attentive then []
  else
    match s.worker.phase with
    | .idle =>
      match s.queue with
      | [] => []
      | .closed id selector discriminator :: _ => [.closed id (selector, discriminator)]
      | .established id selector discriminator context :: _ =>
        if (s.mailboxes.get? id.number).any (·.listening) then
          let c := s.worker.channelFor e.evaluator selector discriminator context
          [.joined id (selector, discriminator) c.last.message]
        else []
    | .visiting _ =>
      match next.stream.worker.phase with
      | .pushing _ push => [.produced push.place push.message]
      | _ => []
    | .pushing _ push =>
      match push.waiting, next.stream.worker.phase with
      | id :: _, .pushing _ _ =>
        ((s.mailboxes.get? id.number).map (.offered id push.message ·)).toList
      | _, _ => []
    | .stalled _ _ => []
    | .stopped => []

/-- What happens in the next step of the worker. -/
def observe (e : Engine) (s : Stream) (next : Step) : List Event :=
  s.remark e next ++ next.effects.map .effect

/-! ## Acts -/

/-- The worker begins a pass that visits the channels in an order of its own. `none` if it has
something else to do, or no change was signalled. -/
def begin? (e : Engine) (s : Stream) (places : List Place) : Option Step :=
  match s.closed, s.worker.phase, s.queue with
  | false, .idle, [] =>
    if places.Perm s.worker.index.places then beginPass? e s places else none
  | _, _, _ => none

/-- What can be done with a stream. -/
inductive Act where
  | connect (selector : Selector) (context : Option Context)
  | disconnect (c : Connection)
  /-- The connection with a number looks into its mailbox. -/
  | take (number : Nat)
  /-- The receiving end of the connection with a number is dropped. -/
  | leave (number : Nat)
  | close (e : Engine)
  /-- The worker takes a step while its engine is `e`. -/
  | work (e : Engine)
  /-- This step begins a pass, which visits the channels in the order of `places`. -/
  | begin (e : Engine) (places : List Place)

/-- Whether an act is one of a client. -/
def Act.isClient : Act → Bool
  | .close _ => false
  | .work _ => false
  | .begin _ _ => false
  | _ => true

/-- One act, with what happened; `none` where it has to wait or there is nothing to do. -/
def act? (s : Stream) : Act → Option (Stream × List Event)
  | .connect selector context =>
    (s.connect? selector context).map fun r => (r.2, [.opened r.1 context])
  | .disconnect c => (s.disconnect? c).map (·, [])
  | .take number =>
    match s.receive ⟨s.serial, number⟩ with
    | (.message m, s') => some (s', [.taken ⟨s.serial, number⟩ m])
    | (_, s') => some (s', [])
  | .leave number => some (s.dropReceiver ⟨s.serial, number⟩, [])
  | .close e => some ((s.close e).1, [])
  | .work e => (step? e s).map fun next => (next.stream, s.observe e next)
  | .begin e places => (begin? e s places).map fun next => (next.stream, s.observe e next)

/-- Several acts one after the other, with what happened; `none` if one of them has to wait. -/
def acts? (s : Stream) : List Act → Option (Stream × List Event)
  | [] => some (s, [])
  | a :: rest =>
    (s.act? a).bind fun r => (r.1.acts? rest).map fun last => (last.1, r.2 ++ last.2)

end Stream

/-- A new stream came to `s` by acts in some order, and `log` is what happened. -/
inductive Run : Stream → List Event → Prop
  | start (serial : Nat) (project engineName : String) (config : StreamConfig)
    (digest : List UInt8 → UInt64) (e : Engine) :
    Run (Stream.start serial project engineName config digest e).1 []
  | act {s s' : Stream} {log events : List Event} {a : Stream.Act} (hrun : Run s log)
    (hact : s.act? a = some (s', events)) : Run s' (log ++ events)

/-- Several acts continue a run. -/
theorem Run.acts {s : Stream} {log : List Event} (h : Run s log) {acts : List Stream.Act}
    {last : Stream × List Event} (hacts : s.acts? acts = some last) :
    Run last.1 (log ++ last.2) := by
  induction acts generalizing s log last with
  | nil =>
    cases hacts
    rwa [List.append_nil]
  | cons a rest ih =>
    obtain ⟨r, hr, hrest⟩ := Option.bind_eq_some_iff.1 hacts
    obtain ⟨final, hfinal, rfl⟩ := Option.map_eq_some_iff.1 hrest
    rw [← List.append_assoc]
    exact ih (.act h hr) hfinal

/-- What every act keeps, several acts in a row keep. -/
theorem foldlM_induct {σ α : Type} {act? : σ → α → Option σ} {P : σ → Prop}
    (hact : ∀ {w w' : σ} {a : α}, P w → act? w a = some w' → P w') {w w' : σ} (h : P w)
    {acts : List α} (hacts : acts.foldlM act? w = some w') : P w' := by
  induction acts generalizing w with
  | nil =>
    cases hacts
    exact h
  | cons a rest ih =>
    rw [List.foldlM_cons] at hacts
    obtain ⟨next, hnext, hrest⟩ := Option.bind_eq_some_iff.1 hacts
    exact ih (hact h hnext) hrest

/-! ## A run to look at -/

/-- An engine whose flag `"f"` serves a truth value, to which a stream has subscribed. -/
def trialEngine (served : Bool) : Engine :=
  ((Engine.ofStore .unconfigured).subscribe (.stream 0)).setFlag (.constant "f" (.bool served))

/-- A stream of that engine with room for one message in every mailbox. -/
def trialStream (policy : DeliveryPolicy) : Stream :=
  (Stream.start 0 "p" "e" ⟨1, 4, policy, "s"⟩ (fun _ => 0) (.ofStore .unconfigured)).1

theorem run_trialStream (policy : DeliveryPolicy) : Run (trialStream policy) [] := .start ..

/-! ## What a step of the worker can be -/

namespace Stream

/-- The cases of a step of the worker, with what happens in each. -/
inductive Turn (e : Engine) (s : Stream) : Step → List Event → Prop
  /-- The worker finds its stream closed. -/
  | stop (hclosed : s.closed = true) (hattentive : s.attentive = true) :
    Turn e s ⟨e, s.stop, []⟩ []
  /-- The receiver of a new connection is gone already. -/
  | refuse {id : ConnectionId} {selector : Selector} {discriminator : UInt64}
    {context : Option Context} {queue : List Command} {c : Channel}
    (hphase : s.worker.phase = .idle)
    (hqueue : s.queue = .established id selector discriminator context :: queue)
    (hchannel : s.worker.channelFor e.evaluator selector discriminator context = c)
    (hout : s.mailboxes.attempt s.config.delivery id.number = .disconnected) :
    Turn e s
      ⟨e, { s with
        queue
        worker := { s.worker with index := s.worker.index.put selector discriminator c }.collect
          (selector, discriminator) }, []⟩ []
  /-- A new connection gets the state of its channel and joins it. -/
  | join {id : ConnectionId} {selector : Selector} {discriminator : UInt64}
    {context : Option Context} {queue : List Command} {c : Channel} {out : Attempt}
    (hphase : s.worker.phase = .idle)
    (hqueue : s.queue = .established id selector discriminator context :: queue)
    (hchannel : s.worker.channelFor e.evaluator selector discriminator context = c)
    (hattempt : s.mailboxes.attempt s.config.delivery id.number = out)
    (hout : out = .sent ∨ out = .dropped) :
    Turn e s
      ⟨e, { s with
        queue
        mailboxes := s.mailboxes.offer s.config.delivery id.number c.last.message
        worker := (s.worker.count out.tally).join selector discriminator c id },
        out.trace id c.last.message ++ Worker.report selector out.tally ++
          [Effect.metric (.opened selector)]⟩
      (.joined id (selector, discriminator) c.last.message ::
        (out.trace id c.last.message ++ Worker.report selector out.tally ++
          [Effect.metric (.opened selector)]).map .effect)
  /-- A connection that is to be closed is no member where it is looked for. -/
  | ignore {id : ConnectionId} {selector : Selector} {discriminator : UInt64}
    {queue : List Command} (hphase : s.worker.phase = .idle)
    (hqueue : s.queue = .closed id selector discriminator :: queue)
    (hmember : ∀ c, s.worker.index.find? selector discriminator = some c → id ∉ c.members) :
    Turn e s ⟨e, { s with queue }, []⟩ [.closed id (selector, discriminator)]
  /-- A member leaves its channel. -/
  | depart {id : ConnectionId} {selector : Selector} {discriminator : UInt64}
    {queue : List Command} {c : Channel} (hphase : s.worker.phase = .idle)
    (hqueue : s.queue = .closed id selector discriminator :: queue)
    (hfind : s.worker.index.find? selector discriminator = some c) (hmember : id ∈ c.members) :
    Turn e s
      ⟨e, { s with
        queue
        worker := ({ s.worker with
          index := s.worker.index.put selector discriminator (c.leave id) }.collect
            (selector, discriminator)).retire },
        [.metric (.closed selector)]⟩
      [.closed id (selector, discriminator), .effect (.metric (.closed selector))]
  /-- A pass begins over all channels, in some order. -/
  | begin {e' : Engine} {places : List Place} (hphase : s.worker.phase = .idle)
    (hqueue : s.queue = []) (hpoll : e.poll s.receiver = (.signal, e'))
    (hplaces : places.Perm s.worker.index.places) :
    Turn e s ⟨e', { s with worker := s.worker.beginPass places }, []⟩ []
  /-- Nothing moved in the next channel of a pass. -/
  | pass {pass : Pass} {place : Place} {todo : List Place}
    (hphase : s.worker.phase = .visiting pass) (htodo : pass.todo = place :: todo)
    (hquiet : ∀ c, s.worker.index.find? place.1 place.2 = some c →
      (c.last.refresh e.evaluator c.context).2 = none) :
    Turn e s
      ⟨e, { s with worker := { s.worker with phase := .visiting { pass with todo } } }, []⟩ []
  /-- Something moved in the next channel of a pass. -/
  | produce {pass : Pass} {place : Place} {todo : List Place} {c : Channel} {last : Snapshot}
    {m : Message} (hphase : s.worker.phase = .visiting pass) (htodo : pass.todo = place :: todo)
    (hfind : s.worker.index.find? place.1 place.2 = some c)
    (hrefresh : c.last.refresh e.evaluator c.context = (last, some m)) :
    Turn e s
      ⟨e, { s with
        worker := { s.worker with
          index := s.worker.index.put place.1 place.2 { c with last }
          phase := .pushing { pass with todo } ⟨place, m, [], c.members, .zero⟩ } }, []⟩
      [.produced place m]
  /-- The pass is over. -/
  | endPass {pass : Pass} (hphase : s.worker.phase = .visiting pass) (htodo : pass.todo = []) :
    Turn e s
      ⟨e, { s with worker := (s.worker.endPass pass).1 }, (s.worker.endPass pass).2⟩
      ((s.worker.endPass pass).2.map .effect)
  /-- The next member is offered the message. -/
  | serve {pass : Pass} {push : Push} {id : ConnectionId} {waiting : List ConnectionId}
    {out : Attempt} (hphase : s.worker.phase = .pushing pass push)
    (hwaiting : push.waiting = id :: waiting)
    (hattempt : s.mailboxes.attempt s.config.delivery id.number = out) (hout : out ≠ .waiting) :
    Turn e s
      ⟨e, { s with
        mailboxes := s.mailboxes.offer s.config.delivery id.number push.message
        worker := { s.worker with
          phase := .pushing pass { push with
            served := if out = .disconnected then push.served else push.served ++ [id]
            waiting
            tally := push.tally + out.tally } } },
        out.trace id push.message⟩
      (((s.mailboxes.get? id.number).map (.offered id push.message ·)).toList ++
        (out.trace id push.message).map .effect)
  /-- The mailbox of the next member has no room, and the worker waits. -/
  | stall {pass : Pass} {push : Push} {id : ConnectionId} {waiting : List ConnectionId}
    (hphase : s.worker.phase = .pushing pass push) (hwaiting : push.waiting = id :: waiting)
    (hout : s.mailboxes.attempt s.config.delivery id.number = .waiting) :
    Turn e s ⟨e, { s with worker := { s.worker with phase := .stalled pass push } }, []⟩ []
  /-- There is room again. -/
  | resume {pass : Pass} {push : Push} (hphase : s.worker.phase = .stalled pass push)
    (hroom : Worker.canResume s.config.delivery s.mailboxes push = true) :
    Turn e s ⟨e, { s with worker := { s.worker with phase := .pushing pass push } }, []⟩ []
  /-- Every member was offered the message. -/
  | endPush {pass : Pass} {push : Push} (hphase : s.worker.phase = .pushing pass push)
    (hwaiting : push.waiting = []) :
    Turn e s
      ⟨e, { s with worker := (s.worker.endPush pass push).1 }, (s.worker.endPush pass push).2⟩
      ((s.worker.endPush pass push).2.map .effect)

theorem observe_of_remark {e : Engine} {s : Stream} {next : Step} {l : List Event}
    (h : s.remark e next = l) : s.observe e next = l ++ next.effects.map .effect := by
  rw [observe, h]

theorem turn_of_closed {e : Engine} {s : Stream} {next : Step} {id : ConnectionId}
    {selector : Selector} {discriminator : UInt64} {queue : List Command}
    (hphase : s.worker.phase = .idle)
    (hqueue : s.queue = .closed id selector discriminator :: queue)
    (hremark : s.remark e next = [.closed id (selector, discriminator)])
    (h : nextJob? e s = some next) : Turn e s next (s.observe e next) := by
  rw [observe_of_remark hremark]
  simp only [nextJob?, hqueue, Worker.handle, Option.map_some, Option.some.injEq] at h
  subst h
  cases hfind : s.worker.index.find? selector discriminator with
  | none =>
    simp only [Worker.close, hfind]
    exact .ignore hphase hqueue fun c hc => by rw [hfind] at hc; cases hc
  | some c =>
    by_cases hmember : id ∈ c.members
    · simp only [Worker.close, hfind, if_pos hmember]
      exact .depart hphase hqueue hfind hmember
    · simp only [Worker.close, hfind, if_neg hmember]
      refine .ignore hphase hqueue fun c' hc' => ?_
      rw [hfind] at hc'
      cases hc'
      exact hmember

theorem turn_of_established {e : Engine} {s : Stream} {next : Step} {id : ConnectionId}
    {selector : Selector} {discriminator : UInt64} {context : Option Context}
    {queue : List Command} (hphase : s.worker.phase = .idle)
    (hqueue : s.queue = .established id selector discriminator context :: queue)
    (hremark : s.remark e next =
      if (s.mailboxes.get? id.number).any (·.listening) then
        [.joined id (selector, discriminator)
          (s.worker.channelFor e.evaluator selector discriminator context).last.message]
      else [])
    (h : nextJob? e s = some next) : Turn e s next (s.observe e next) := by
  rw [observe_of_remark hremark]
  simp only [nextJob?, hqueue, Worker.handle, Worker.establish] at h
  have hlistening := s.mailboxes.any_listening_iff s.config.delivery id.number
  cases hout : s.mailboxes.attempt s.config.delivery id.number with
  | waiting => simp [hout] at h
  | disconnected =>
    simp only [hout, Option.map_some, Option.some.injEq] at h
    subst h
    have hgone : (s.mailboxes.get? id.number).any (·.listening) = false := by
      simpa [hout] using hlistening
    rw [hgone, Mailboxes.offer_of_ne_sent (by simp [hout])]
    exact .refuse hphase hqueue rfl hout
  | sent =>
    simp only [hout, Option.map_some, Option.some.injEq] at h
    subst h
    rw [hlistening.2 (by simp [hout])]
    exact .join hphase hqueue rfl hout (.inl rfl)
  | dropped =>
    simp only [hout, Option.map_some, Option.some.injEq] at h
    subst h
    rw [hlistening.2 (by simp [hout])]
    exact .join hphase hqueue rfl hout (.inr rfl)

theorem turn_of_beginPass? {e : Engine} {s : Stream} {next : Step} {places : List Place}
    (hremark : s.remark e next = []) (hphase : s.worker.phase = .idle) (hqueue : s.queue = [])
    (hplaces : places.Perm s.worker.index.places) (h : beginPass? e s places = some next) :
    Turn e s next (s.observe e next) := by
  rw [observe_of_remark hremark]
  unfold beginPass? at h
  split at h
  · next e' hpoll =>
    cases h
    exact .begin hphase hqueue hpoll hplaces
  · cases h

theorem turn_of_idle {e : Engine} {s : Stream} {next : Step}
    (hopen : (s.closed && s.attentive) = false) (hphase : s.worker.phase = .idle)
    (h : nextJob? e s = some next) : Turn e s next (s.observe e next) := by
  cases hqueue : s.queue with
  | cons command queue =>
    cases command with
    | closed id selector discriminator =>
      exact turn_of_closed hphase hqueue (by simp [remark, hopen, hphase, hqueue]) h
    | established id selector discriminator context =>
      exact turn_of_established hphase hqueue (by simp [remark, hopen, hphase, hqueue]) h
  | nil =>
    have hbegin : beginPass? e s s.worker.index.places = some next := by
      simpa only [nextJob?, hqueue] using h
    exact turn_of_beginPass? (by simp [remark, hopen, hphase, hqueue]) hphase hqueue (.refl _)
      hbegin

theorem turn_of_visiting {e : Engine} {s : Stream} {next : Step} {pass : Pass}
    (hopen : (s.closed && s.attentive) = false) (hphase : s.worker.phase = .visiting pass)
    (h : nextPassStep? e s = some next) : Turn e s next (s.observe e next) := by
  simp only [nextPassStep?, Worker.passStep?, hphase] at h
  cases htodo : pass.todo with
  | nil =>
    simp only [htodo, Option.map_some, Option.some.injEq] at h
    subst h
    rw [observe_of_remark (l := []) (by simp [remark, hopen, hphase, withResult])]
    exact .endPass hphase htodo
  | cons place todo =>
    simp only [htodo, Option.map_some, Option.some.injEq] at h
    rcases Worker.visit_cases s.worker e.evaluator { pass with todo } place with
      ⟨hvisit, hquiet⟩ | ⟨c, last, m, hfind, hrefresh, hvisit⟩
    · rw [hvisit] at h
      subst h
      rw [observe_of_remark (l := []) (by simp [remark, hopen, hphase, withResult])]
      exact .pass hphase htodo hquiet
    · rw [hvisit] at h
      subst h
      rw [observe_of_remark (l := [.produced place m])
        (by simp [remark, hopen, hphase, withResult])]
      exact .produce hphase htodo hfind hrefresh

theorem turn_of_pushing {e : Engine} {s : Stream} {next : Step} {pass : Pass} {push : Push}
    (hopen : (s.closed && s.attentive) = false) (hphase : s.worker.phase = .pushing pass push)
    (h : nextPassStep? e s = some next) : Turn e s next (s.observe e next) := by
  simp only [nextPassStep?, Worker.passStep?, hphase] at h
  cases hwaiting : push.waiting with
  | nil =>
    simp only [hwaiting, Option.map_some, Option.some.injEq] at h
    subst h
    rw [observe_of_remark (l := []) (by simp [remark, hopen, hphase, hwaiting])]
    exact .endPush hphase hwaiting
  | cons id waiting =>
    simp only [hwaiting, Option.map_some, Option.some.injEq] at h
    subst h
    cases hout : s.mailboxes.attempt s.config.delivery id.number with
    | waiting =>
      simp only [Worker.deliver, hout, withResult]
      rw [observe_of_remark (l := []) (by simp [remark, hopen, hphase, hwaiting]),
        Mailboxes.offer_of_ne_sent (by simp [hout])]
      exact .stall hphase hwaiting hout
    | sent =>
      simp only [Worker.deliver, hout, withResult]
      rw [observe_of_remark (by simp [remark, hopen, hphase, hwaiting]; rfl)]
      exact .serve hphase hwaiting hout (by simp)
    | dropped =>
      simp only [Worker.deliver, hout, withResult]
      rw [observe_of_remark (by simp [remark, hopen, hphase, hwaiting]; rfl)]
      exact .serve hphase hwaiting hout (by simp)
    | disconnected =>
      simp only [Worker.deliver, hout, withResult]
      rw [observe_of_remark (by simp [remark, hopen, hphase, hwaiting]; rfl)]
      exact .serve hphase hwaiting hout (by simp)

theorem turn_of_stalled {e : Engine} {s : Stream} {next : Step} {pass : Pass} {push : Push}
    (hopen : (s.closed && s.attentive) = false) (hphase : s.worker.phase = .stalled pass push)
    (h : nextPassStep? e s = some next) : Turn e s next (s.observe e next) := by
  simp only [nextPassStep?, Worker.passStep?, hphase] at h
  rw [observe_of_remark (l := []) (by simp [remark, hopen, hphase])]
  split at h
  · next hroom =>
    cases h
    exact .resume hphase hroom
  · cases h

/-- **A step of the worker is one of the turns**, and what happens in it is what the turn says. -/
theorem turn_of_step? {e : Engine} {s : Stream} {next : Step} (h : step? e s = some next) :
    Turn e s next (s.observe e next) := by
  unfold step? at h
  split at h
  · next hstop =>
    cases h
    rw [observe_of_remark (l := []) (by simp [remark, hstop])]
    rw [Bool.and_eq_true] at hstop
    exact .stop hstop.1 hstop.2
  · next hopen =>
    rw [Bool.not_eq_true] at hopen
    split at h
    · cases h
    · next hphase => exact turn_of_idle hopen hphase h
    · next hstopped hidle =>
      cases hphase : s.worker.phase with
      | idle => exact absurd hphase hidle
      | stopped => exact absurd hphase hstopped
      | visiting pass => exact turn_of_visiting hopen hphase h
      | pushing pass push => exact turn_of_pushing hopen hphase h
      | stalled pass push => exact turn_of_stalled hopen hphase h

/-- So is a step that begins a pass in an order of its own. -/
theorem turn_of_begin? {e : Engine} {s : Stream} {next : Step} {places : List Place}
    (h : begin? e s places = some next) : Turn e s next (s.observe e next) := by
  unfold begin? at h
  split at h
  · next hopen hphase hqueue =>
    split at h
    · next hplaces =>
      exact turn_of_beginPass? (by simp [remark, hopen, hphase, hqueue]) hphase hqueue hplaces h
    · cases h
  · cases h

/-- Of two channels the later one may be visited first. -/
example : ((trialStream .block).acts? [.connect .all none, .connect (.flag "f") none,
    .work (trialEngine true), .work (trialEngine true), .take 0, .take 1,
    .begin (trialEngine false) [(.flag "f", 0), (.all, 0)]]).map
      (fun r => r.1.worker.phase.pass?.map (·.todo)) =
    some (some [(.flag "f", 0), (.all, 0)]) := by
  decide

/-! ## What a step of the worker leaves as it is -/

namespace Turn

variable {e : Engine} {s : Stream} {next : Step} {events : List Event}

theorem serial_eq (hturn : Turn e s next events) : next.stream.serial = s.serial := by
  cases hturn <;> rfl

theorem config_eq (hturn : Turn e s next events) : next.stream.config = s.config := by
  cases hturn <;> rfl

theorem closed_eq (hturn : Turn e s next events) : next.stream.closed = s.closed := by
  cases hturn <;> rfl

theorem receiver_eq (hturn : Turn e s next events) : next.stream.receiver = s.receiver := by
  cases hturn <;> rfl

/-- A step of the worker leaves the engine alone, or takes the signal with which a pass begins. -/
theorem engine_cases (hturn : Turn e s next events) :
    next.engine = e ∨
      e.poll s.receiver = (.signal, next.engine) ∧
        ∃ places : List Place, places.Perm s.worker.index.places ∧
          next.stream.worker = s.worker.beginPass places := by
  cases hturn with
  | begin hphase hqueue hpoll hplaces => exact .inr ⟨hpoll, _, hplaces, rfl⟩
  | stop | refuse | join | ignore | depart | pass | produce | endPass | serve | stall | resume
  | endPush => exact .inl rfl

theorem next_eq (hturn : Turn e s next events) :
    next.stream.mailboxes.next = s.mailboxes.next := by
  cases hturn with
  | join => exact Mailboxes.next_offer ..
  | serve => exact Mailboxes.next_offer ..
  | stop | refuse | ignore | depart | begin | pass | produce | endPass | stall | resume
  | endPush => rfl

end Turn

/-! ## What an act can be -/

/-- The cases of an act, with what happens in each. -/
inductive Move (s : Stream) : Stream → List Event → Prop
  /-- Nothing changes. -/
  | still : Move s s []
  /-- A connection is opened, and a command asks the worker to register it. -/
  | connect {c : Connection} {context : Option Context} (hopen : s.closed = false)
    (hroom : s.queueFull = false) (hid : c.id = ⟨s.serial, s.mailboxes.next⟩) :
    Move s
      { s with
        mailboxes := s.mailboxes.add s.config.mailboxCapacity
        queue := s.queue ++ [.established c.id c.selector c.discriminator context] }
      [.opened c context]
  /-- A connection is opened on a closed stream. -/
  | connectClosed {c : Connection} {context : Option Context} (hclosed : s.closed = true)
    (hid : c.id = ⟨s.serial, s.mailboxes.next⟩) :
    Move s { s with mailboxes := s.mailboxes.add s.config.mailboxCapacity } [.opened c context]
  /-- A command asks the worker to close a connection. -/
  | disconnect (c : Connection) (hopen : s.closed = false) (hroom : s.queueFull = false) :
    Move s { s with queue := s.queue ++ [.closed c.id c.selector c.discriminator] } []
  /-- A connection takes the first message out of its mailbox. -/
  | take {number : Nat} {box : Mailbox} {m : Message} {rest : List Message}
    (hbox : s.mailboxes.get? number = some box) (hmessages : box.messages = m :: rest) :
    Move s
      { s with mailboxes := s.mailboxes.modify number fun b => { b with messages := rest } }
      [.taken ⟨s.serial, number⟩ m]
  /-- A receiver is dropped. -/
  | leave (number : Nat) :
    Move s
      { s with
        mailboxes := s.mailboxes.modify number fun b =>
          { b with listening := false, messages := [] } } []
  | close (hopen : s.closed = false) : Move s { s with closed := true } []
  | work {e : Engine} {next : Step} {events : List Event} (hturn : Turn e s next events) :
    Move s next.stream events

theorem Move.config_eq {s s' : Stream} {events : List Event} (hmove : Move s s' events) :
    s'.config = s.config := by
  cases hmove with
  | work hturn => exact hturn.config_eq
  | still | connect | connectClosed | disconnect | take | leave | close => rfl

/-- A stream keeps its number, its project and its engine. -/
theorem Move.label_eq {s s' : Stream} {events : List Event} (hmove : Move s s' events) :
    s'.serial = s.serial ∧ s'.project = s.project ∧ s'.engine = s.engine := by
  cases hmove with
  | work hturn => cases hturn <;> exact ⟨rfl, rfl, rfl⟩
  | still | connect | connectClosed | disconnect | take | leave | close => exact ⟨rfl, rfl, rfl⟩

/-- A connection takes the first message of its mailbox, or finds none. -/
theorem receive_cases (s : Stream) (id : ConnectionId) :
    (∃ box m rest, s.mailboxes.get? id.number = some box ∧ box.messages = m :: rest ∧
      s.receive id =
        (.message m,
          { s with
            mailboxes := s.mailboxes.modify id.number fun b => { b with messages := rest } })) ∨
    s.receive id = (.empty, s) ∨ s.receive id = (.ended, s) := by
  have hnothing : s.receive id = (if s.holds id then .empty else .ended, s) →
      s.receive id = (.empty, s) ∨ s.receive id = (.ended, s) := by
    intro h
    cases hholds : s.holds id with
    | true => exact .inl (by rw [h, hholds, if_pos rfl])
    | false => exact .inr (by rw [h, hholds, if_neg Bool.false_ne_true])
  cases hbox : s.mailboxes.get? id.number with
  | none => exact .inr (hnothing (by simp only [receive, hbox]))
  | some box =>
    obtain ⟨capacity, messages, listening⟩ := box
    cases messages with
    | nil => exact .inr (hnothing (by simp only [receive, hbox]))
    | cons m rest => exact .inl ⟨_, m, rest, rfl, rfl, by simp only [receive, hbox]⟩

theorem eq_of_connect? {s : Stream} {selector : Selector} {context : Option Context}
    {r : Connection × Stream} (h : s.connect? selector context = some r) :
    ∃ mailboxes queue, r.2 = { s with mailboxes, queue } := by
  unfold connect? at h
  split at h
  · cases h
    exact ⟨_, _, rfl⟩
  · split at h
    · cases h
    · cases h
      exact ⟨_, _, rfl⟩

theorem eq_of_disconnect? {s s' : Stream} {c : Connection} (h : s.disconnect? c = some s') :
    ∃ queue, s' = { s with queue } := by
  unfold disconnect? at h
  split at h
  · cases h
    exact ⟨_, rfl⟩
  · split at h
    · cases h
    · cases h
      exact ⟨_, rfl⟩

/-- Clients touch mailboxes and the queue of commands, and nothing else. -/
theorem eq_of_isClient {s : Stream} {a : Act} {r : Stream × List Event} (h : s.act? a = some r)
    (hclient : a.isClient = true) : ∃ mailboxes queue, r.1 = { s with mailboxes, queue } := by
  cases a with
  | connect selector context =>
    obtain ⟨r', hr', rfl⟩ := Option.map_eq_some_iff.1 h
    exact eq_of_connect? hr'
  | disconnect c =>
    obtain ⟨s', hs', rfl⟩ := Option.map_eq_some_iff.1 h
    obtain ⟨queue, heq⟩ := eq_of_disconnect? hs'
    exact ⟨s.mailboxes, queue, heq⟩
  | take number =>
    rcases s.receive_cases ⟨s.serial, number⟩ with ⟨_, _, _, -, -, heq⟩ | heq | heq
    all_goals
      simp only [act?, heq] at h
      cases h
      exact ⟨_, _, rfl⟩
  | leave number =>
    cases h
    exact ⟨_, _, rfl⟩
  | close | work | begin => cases hclient

theorem move_of_connect? {s s' : Stream} {c : Connection} {selector : Selector}
    {context : Option Context} (h : s.connect? selector context = some (c, s')) :
    Move s s' [.opened c context] := by
  unfold connect? at h
  split at h
  · next hclosed =>
    cases h
    exact .connectClosed hclosed rfl
  · next hopen =>
    split at h
    · cases h
    · next hroom =>
      cases h
      exact .connect (c := s.nextConnection selector context) (by simpa using hopen)
        (by simpa using hroom) rfl

theorem move_of_disconnect? {s s' : Stream} {c : Connection} (h : s.disconnect? c = some s') :
    Move s s' [] := by
  unfold disconnect? at h
  split at h
  · cases h
    exact .still
  · next hopen =>
    split at h
    · cases h
    · next hroom =>
      cases h
      exact .disconnect c (by simpa using hopen) (by simpa using hroom)

/-- **An act is one of the moves**, and what happens in it is what the move says. -/
theorem move_of_act? {s s' : Stream} {a : Act} {events : List Event}
    (h : s.act? a = some (s', events)) : Move s s' events := by
  cases a with
  | connect selector context =>
    obtain ⟨r, hr, heq⟩ := Option.map_eq_some_iff.1 h
    cases heq
    exact move_of_connect? hr
  | disconnect c =>
    obtain ⟨r, hr, heq⟩ := Option.map_eq_some_iff.1 h
    cases heq
    exact move_of_disconnect? hr
  | take number =>
    rcases receive_cases s ⟨s.serial, number⟩ with
      ⟨box, m, rest, hbox, hmessages, hreceive⟩ | hreceive | hreceive
    · simp only [act?, hreceive, Option.some.injEq, Prod.mk.injEq] at h
      obtain ⟨rfl, rfl⟩ := h
      exact .take hbox hmessages
    · simp only [act?, hreceive, Option.some.injEq, Prod.mk.injEq] at h
      obtain ⟨rfl, rfl⟩ := h
      exact .still
    · simp only [act?, hreceive, Option.some.injEq, Prod.mk.injEq] at h
      obtain ⟨rfl, rfl⟩ := h
      exact .still
  | leave number =>
    cases h
    exact .leave number
  | close e =>
    simp only [act?, close, Option.some.injEq, Prod.mk.injEq] at h
    obtain ⟨rfl, rfl⟩ := h
    cases hclosed : s.closed with
    | true =>
      rw [if_pos rfl]
      exact .still
    | false =>
      rw [if_neg (by simp)]
      exact .close hclosed
  | work e =>
    obtain ⟨next, hnext, heq⟩ := Option.map_eq_some_iff.1 h
    cases heq
    exact .work (turn_of_step? hnext)
  | begin e places =>
    obtain ⟨next, hnext, heq⟩ := Option.map_eq_some_iff.1 h
    cases heq
    exact .work (turn_of_begin? hnext)

end Stream

/-- What holds of a new stream and is kept by every move holds after every run. -/
theorem Run.induct {P : Stream → List Event → Prop} {s : Stream} {log : List Event}
    (h : Run s log)
    (hstart : ∀ serial project engineName config digest e,
      P (Stream.start serial project engineName config digest e).1 [])
    (hmove : ∀ {s log s' events}, Run s log → P s log → Stream.Move s s' events →
      P s' (log ++ events)) : P s log := by
  induction h with
  | start serial project engineName config digest e =>
    exact hstart serial project engineName config digest e
  | act hrun hact ih => exact hmove hrun ih (Stream.move_of_act? hact)

end FlagFanout
