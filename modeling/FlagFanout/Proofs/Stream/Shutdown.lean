import FlagFanout.Proofs.Stream.Currency
import Mathlib.Logic.Relation

/-!
# The end of a stream

A stream is closed at once, and its worker stops later: when it is between two jobs or waits, it
takes notice, and while it waits in the middle of a pass it may also be cut off. Until then commands
wait in its queue, and clients that found the stream open may send more. `World.late?` is an act of
a world in which all of that happens too.

`World.Reached.ends_once_closed` says that nothing of it matters. From every state of a closed
stream the worker comes to its end by its own steps, whether or not anybody reads (`World.Ends`).
Where it has stopped, no sending end is left, so every connection finds what waits in its mailbox
and then the end, the gauges are at zero and the engine has no subscription of the stream
(`World.IsOver`); and all of this stays so, whatever clients and engine do (`World.Stays`).
-/

namespace FlagFanout

/-! ## Mailboxes that are only emptied -/

namespace Mailboxes

/-- The messages that wait for the connection with a number. -/
def waiting (b : Mailboxes) (n : Nat) : List Message := (b.get? n).elim [] (·.messages)

/-- Nothing was placed: whatever waits now waited before. -/
def Dwindles (b b' : Mailboxes) : Prop := ∀ n, b'.waiting n <:+ b.waiting n

theorem Dwindles.refl (b : Mailboxes) : b.Dwindles b := fun _ => List.suffix_refl _

theorem Dwindles.trans {b b' b'' : Mailboxes} (h : b.Dwindles b') (h' : b'.Dwindles b'') :
    b.Dwindles b'' :=
  fun n => (h' n).trans (h n)

theorem waiting_of_get? {b : Mailboxes} {n : Nat} {box : Mailbox} (h : b.get? n = some box) :
    b.waiting n = box.messages := by
  rw [waiting, h, Option.elim_some]

/-- A new mailbox is empty. -/
theorem dwindles_add (b : Mailboxes) (capacity : Nat) : b.Dwindles (b.add capacity) := by
  intro n
  unfold waiting
  rw [get?_add]
  split
  · exact List.nil_suffix
  · exact List.suffix_refl _

theorem dwindles_modify {b : Mailboxes} {n : Nat} {f : Mailbox → Mailbox}
    (h : ∀ box, b.get? n = some box → (f box).messages <:+ box.messages) :
    b.Dwindles (b.modify n f) := by
  intro n'
  unfold waiting
  rw [get?_modify]
  split
  · next heq =>
    subst heq
    cases hbox : b.get? n' with
    | none => exact List.suffix_refl _
    | some box => exact h box hbox
  · exact List.suffix_refl _

end Mailboxes

/-! ## What a connection finds -/

namespace Stream

/-- What a connection finds when it looks into its mailbox several times. -/
def receipts (s : Stream) (id : ConnectionId) : Nat → List Receipt
  | 0 => []
  | n + 1 => (s.receive id).1 :: (s.receive id).2.receipts id n

/-- Where no sending end is left, a connection finds what waits and then, for ever, the end. -/
theorem receipts_of_released {s : Stream} {id : ConnectionId} (h : s.holds id = false) (n : Nat) :
    s.receipts id n =
      ((s.mailboxes.waiting id.number).take n).map .message ++
        List.replicate (n - (s.mailboxes.waiting id.number).length) .ended := by
  induction n generalizing s with
  | zero => simp [receipts]
  | succ n ih =>
    have hended : s.receive id = (.ended, s) → s.mailboxes.waiting id.number = [] →
        s.receipts id (n + 1) = .ended :: List.replicate n .ended := by
      intro hreceive hwaiting
      have hrest := ih h
      rw [hwaiting] at hrest
      rw [receipts, hreceive, hrest]
      simp
    cases hbox : s.mailboxes.get? id.number with
    | none =>
      have hwaiting : s.mailboxes.waiting id.number = [] := by
        rw [Mailboxes.waiting, hbox, Option.elim_none]
      rw [hended (by simp [receive, hbox, h]) hwaiting, hwaiting]
      rfl
    | some box =>
      obtain ⟨capacity, messages, listening⟩ := box
      have hwaiting : s.mailboxes.waiting id.number = messages := Mailboxes.waiting_of_get? hbox
      cases messages with
      | nil =>
        rw [hended (by simp [receive, hbox, h]) hwaiting, hwaiting]
        rfl
      | cons m rest =>
        obtain ⟨s', hreceive, hreleased, hrest⟩ : ∃ s', s.receive id = (.message m, s') ∧
            s'.holds id = false ∧ s'.mailboxes.waiting id.number = rest :=
          ⟨{ s with
              mailboxes := s.mailboxes.modify id.number fun b => { b with messages := rest } },
            by simp only [receive, hbox], h, by simp [Mailboxes.waiting, hbox]⟩
        rw [receipts, hreceive, hwaiting, ih hreleased, hrest]
        simp

/-! ## Clients that found the stream open -/

/-- A command goes to the worker without another look at the stream. A worker that has stopped takes
none, and the command is lost; `none` if the queue has no room. -/
def send? (s : Stream) (command : Command) : Option Stream :=
  match s.worker.phase with
  | .stopped => some s
  | _ => if s.queueFull then none else some { s with queue := s.queue ++ [command] }

/-- Opens a connection for a client that found the stream open. -/
def connectLate? (s : Stream) (selector : Selector) (context : Option Context) : Option Stream :=
  let c := s.nextConnection selector context
  { s with mailboxes := s.mailboxes.add s.config.mailboxCapacity }.send?
    (.established c.id selector c.discriminator context)

/-- Asks for a connection to be closed, for a client that found the stream open. -/
def disconnectLate? (s : Stream) (c : Connection) : Option Stream :=
  s.send? (.closed c.id c.selector c.discriminator)

/-- What is sent waits in the queue or is lost. -/
theorem send?_cases {s s' : Stream} {command : Command} (h : s.send? command = some s') :
    s.worker.phase = .stopped ∧ s' = s ∨
      s.worker.phase ≠ .stopped ∧ s' = { s with queue := s.queue ++ [command] } := by
  unfold send? at h
  split at h
  · next hphase =>
    cases h
    exact .inl ⟨hphase, rfl⟩
  · next hphase =>
    split at h
    · cases h
    · cases h
      exact .inr ⟨hphase, rfl⟩

/-- A worker is found stopped only where it stops. -/
theorem Turn.eq_of_stopped {e : Engine} {s : Stream} {next : Step} {events : List Event}
    (hturn : Turn e s next events) (hstopped : next.stream.worker.phase = .stopped) :
    s.closed = true ∧ next = ⟨e, s.stop, []⟩ := by
  cases hturn with
  | stop hclosed => exact ⟨hclosed, rfl⟩
  | refuse hphase => exact absurd (hphase.symm.trans hstopped) (by simp)
  | join hphase => exact absurd (hphase.symm.trans hstopped) (by simp)
  | ignore hphase => exact absurd (hphase.symm.trans hstopped) (by simp)
  | depart hphase => exact absurd (hphase.symm.trans hstopped) (by simp)
  | endPass => simp at hstopped
  | begin | pass | produce | serve | stall | resume | endPush => cases hstopped

/-- A worker that has stopped takes no step. -/
theorem Turn.phase_ne_stopped {e : Engine} {s : Stream} {next : Step} {events : List Event}
    (hturn : Turn e s next events) : s.worker.phase ≠ .stopped := by
  intro hstopped
  cases hturn with
  | stop _ hattentive =>
    rw [attentive, hstopped] at hattentive
    cases hattentive
  | refuse hphase | join hphase | ignore hphase | depart hphase | begin hphase | pass hphase
  | produce hphase | endPass hphase | serve hphase | stall hphase | resume hphase
  | endPush hphase =>
    rw [hphase] at hstopped
    cases hstopped

end Stream

/-! ## Worlds in which clients are late -/

namespace World

/-- What can happen in a world in which a stream is closed under its clients. -/
inductive LateAct where
  | ordinary (a : Act)
  /-- A connection is opened by a client that found the stream open. -/
  | connect (selector : Selector) (context : Option Context)
  /-- A connection is to be closed by a client that found the stream open. -/
  | disconnect (c : Connection)
  /-- The worker of a closed stream is cut off, whatever it is in the middle of. -/
  | cut

/-- One act; `none` where it has to wait, there is nothing to do, or it is not for others. -/
def late? (w : World) : LateAct → Option World
  | .ordinary a => w.act? a
  | .connect selector context =>
    (w.stream.connectLate? selector context).map fun stream => { w with stream }
  | .disconnect c => (w.stream.disconnectLate? c).map fun stream => { w with stream }
  | .cut => if w.stream.closed then some { w with stream := w.stream.stop } else none

/-- Acts in some order lead from one world to another. -/
def LeadsTo : World → World → Prop :=
  Relation.ReflTransGen fun w w' => ∃ a, w.late? a = some w'

/-- What an act can do, as far as the end of the stream is concerned. -/
inductive Shift (w : World) : World → Prop
  /-- The engine is changed or somebody else subscribes. -/
  | others {e : Engine} {unsignalled : Nat}
    (hserves : e.signals.Serves w.stream.subscriber →
      w.engine.signals.Serves w.stream.subscriber) :
    Shift w { w with engine := e, unsignalled }
  /-- A mailbox is made, read or given up. -/
  | mail {mailboxes : Mailboxes} (hmail : w.stream.mailboxes.Dwindles mailboxes) :
    Shift w { w with stream := { w.stream with mailboxes } }
  /-- A client sends a command. -/
  | ask {mailboxes : Mailboxes} {queue : List Command}
    (hopen : w.stream.closed = false ∨ w.stream.worker.phase ≠ .stopped) :
    Shift w { w with stream := { w.stream with mailboxes, queue } }
  | work {next : Stream.Step} {events : List Event}
    (hturn : Stream.Turn w.engine w.stream next events) :
    Shift w { w with engine := next.engine, stream := next.stream }
  | close (hopen : w.stream.closed = false) :
    Shift w { w with
      engine := w.engine.unsubscribe w.stream.subscriber
      stream := { w.stream with closed := true } }
  | cut (hclosed : w.stream.closed = true) : Shift w { w with stream := w.stream.stop }

namespace Shift

variable {w : World}

theorem still : Shift w w := .mail (.refl _)

theorem connect {r : Connection × Stream} {selector : Selector} {context : Option Context}
    (h : w.stream.connect? selector context = some r) : Shift w { w with stream := r.2 } := by
  unfold Stream.connect? at h
  split at h
  · cases h
    exact .mail (w.stream.mailboxes.dwindles_add _)
  · next hopen =>
    split at h
    · cases h
    · cases h
      exact .ask (.inl (by simpa using hopen))

theorem disconnect {s : Stream} {c : Connection} (h : w.stream.disconnect? c = some s) :
    Shift w { w with stream := s } := by
  unfold Stream.disconnect? at h
  split at h
  · cases h
    exact .still
  · next hopen =>
    split at h
    · cases h
    · cases h
      exact .ask (.inl (by simpa using hopen))

theorem take {number : Nat} {r : Stream × List Event}
    (h : w.stream.act? (.take number) = some r) : Shift w { w with stream := r.1 } := by
  rcases Stream.receive_cases w.stream ⟨w.stream.serial, number⟩ with
    ⟨box, m, rest, hbox, hmessages, hreceive⟩ | hreceive | hreceive
  · simp only [Stream.act?, hreceive, Option.some.injEq] at h
    rw [← h]
    refine .mail (Mailboxes.dwindles_modify fun box' hbox' => ?_)
    rw [hbox] at hbox'
    cases hbox'
    rw [hmessages]
    exact List.suffix_cons m rest
  · simp only [Stream.act?, hreceive, Option.some.injEq] at h
    rw [← h]
    exact .still
  · simp only [Stream.act?, hreceive, Option.some.injEq] at h
    rw [← h]
    exact .still

theorem closing : Shift w { w with
    engine := (w.stream.close w.engine).2
    stream := (w.stream.close w.engine).1 } := by
  unfold Stream.close
  cases hclosed : w.stream.closed with
  | true => exact .still
  | false => exact .close hclosed

/-- **An act is one of the shifts.** -/
theorem of_act? {w' : World} {a : Act} (hact : w.act? a = some w') : Shift w w' := by
  cases a with
  | replaceFlags flags =>
    cases hact
    exact .others .of_publish
  | setFlag f =>
    cases hact
    exact .others .of_publish
  | removeFlag key =>
    cases hact
    rw [Engine.removeFlag]
    split
    · exact .others .of_publish
    · exact .still
  | write store =>
    cases hact
    exact .others id
  | signal =>
    cases hact
    exact .others .of_publish
  | connect selector context =>
    obtain ⟨r, hr, rfl⟩ := Option.map_eq_some_iff.1 hact
    obtain ⟨r', hr', rfl⟩ := Option.map_eq_some_iff.1 hr
    exact .connect hr'
  | disconnect c =>
    obtain ⟨r, hr, rfl⟩ := Option.map_eq_some_iff.1 hact
    obtain ⟨s, hs, rfl⟩ := Option.map_eq_some_iff.1 hr
    exact .disconnect hs
  | take number =>
    obtain ⟨r, hr, rfl⟩ := Option.map_eq_some_iff.1 hact
    exact .take hr
  | leave number =>
    cases hact
    exact .mail (Mailboxes.dwindles_modify fun _ _ => List.nil_suffix)
  | work =>
    obtain ⟨next, hnext, rfl⟩ := Option.map_eq_some_iff.1 hact
    exact .work (Stream.turn_of_step? hnext)
  | begin places =>
    obtain ⟨next, hnext, rfl⟩ := Option.map_eq_some_iff.1 hact
    exact .work (Stream.turn_of_begin? hnext)
  | close =>
    cases hact
    exact .closing
  | subscribe who =>
    simp only [act?] at hact
    split at hact
    · cases hact
    · next hne =>
      cases hact
      exact .others fun h => h.of_subscribe (Ne.symm hne)
  | unsubscribe who =>
    simp only [act?] at hact
    split at hact
    · cases hact
    · cases hact
      exact .others fun h => h.of_unsubscribe.1
  | poll receiver =>
    simp only [act?] at hact
    split at hact
    · cases hact
    · cases hact
      exact .others .of_poll
  | dropReceiver receiver =>
    simp only [act?] at hact
    split at hact
    · cases hact
    · cases hact
      exact .others .of_dropReceiver

theorem of_late? {w' : World} {a : LateAct} (hact : w.late? a = some w') : Shift w w' := by
  cases a with
  | ordinary a => exact .of_act? hact
  | connect selector context =>
    obtain ⟨s, hs, rfl⟩ := Option.map_eq_some_iff.1 hact
    rcases Stream.send?_cases hs with ⟨-, rfl⟩ | ⟨hphase, rfl⟩
    · exact .mail (w.stream.mailboxes.dwindles_add _)
    · exact .ask (.inr hphase)
  | disconnect c =>
    obtain ⟨s, hs, rfl⟩ := Option.map_eq_some_iff.1 hact
    rcases Stream.send?_cases hs with ⟨-, rfl⟩ | ⟨hphase, rfl⟩
    · exact .still
    · exact .ask (.inr hphase)
  | cut =>
    simp only [late?] at hact
    split at hact
    · next hclosed =>
      cases hact
      exact .cut hclosed
    · cases hact

end Shift

/-! ## What a stopped worker leaves behind -/

/-- The engine forgets a stream that is closed, and a worker stops only then and with nothing in its
hands. -/
structure IsShut (w : World) : Prop where
  unserved : w.stream.closed = true → ¬ w.engine.signals.Serves w.stream.subscriber
  closed : w.stream.worker.phase = .stopped → w.stream.closed = true
  queue_eq : w.stream.worker.phase = .stopped → w.stream.queue = []
  worker_eq : w.stream.worker.phase = .stopped → w.stream.worker = w.stream.worker.stop

namespace IsShut

variable {w w' : World}

theorem work (h : IsShut w) {next : Stream.Step} {events : List Event}
    (hturn : Stream.Turn w.engine w.stream next events) :
    IsShut { w with engine := next.engine, stream := next.stream } := by
  have hunserved : next.stream.closed = true →
      ¬ next.engine.signals.Serves next.stream.subscriber := by
    intro hclosed hserves
    rw [hturn.closed_eq] at hclosed
    have hsubscriber : next.stream.subscriber = w.stream.subscriber :=
      congrArg Subscriber.stream hturn.serial_eq
    rw [hsubscriber] at hserves
    rcases hturn.engine_cases with hengine | ⟨hpoll, -⟩
    · rw [hengine] at hserves
      exact h.unserved hclosed hserves
    · have hengine : next.engine = (w.engine.poll w.stream.receiver).2 := by rw [hpoll]
      rw [hengine] at hserves
      exact h.unserved hclosed hserves.of_poll
  refine ⟨hunserved, fun hstopped => ?_, fun hstopped => ?_, fun hstopped => ?_⟩
  · obtain ⟨hclosed, rfl⟩ := hturn.eq_of_stopped hstopped
    exact hclosed
  · obtain ⟨-, rfl⟩ := hturn.eq_of_stopped hstopped
    rfl
  · obtain ⟨-, rfl⟩ := hturn.eq_of_stopped hstopped
    rfl

theorem shift (h : IsShut w) (hshift : Shift w w') : IsShut w' := by
  cases hshift with
  | others hserves =>
    exact ⟨fun hclosed hserved => h.unserved hclosed (hserves hserved), h.closed, h.queue_eq,
      h.worker_eq⟩
  | mail => exact ⟨h.unserved, h.closed, h.queue_eq, h.worker_eq⟩
  | ask hopen =>
    refine ⟨h.unserved, h.closed, fun hstopped => ?_, h.worker_eq⟩
    rcases hopen with hopen | hphase
    · rw [h.closed hstopped] at hopen
      cases hopen
    · exact absurd hstopped hphase
  | work hturn => exact h.work hturn
  | close hopen =>
    exact ⟨fun _ hserves => hserves.of_unsubscribe.2 rfl, fun _ => rfl, h.queue_eq, h.worker_eq⟩
  | cut hclosed =>
    exact ⟨fun _ => h.unserved hclosed, fun _ => hclosed, fun _ => rfl, fun _ => rfl⟩

theorem leadsTo (h : IsShut w) (hleads : w.LeadsTo w') : IsShut w' := by
  induction hleads with
  | refl => exact h
  | tail _ hact ih =>
    obtain ⟨a, ha⟩ := hact
    exact ih.shift (.of_late? ha)

end IsShut

/-- Without late clients every world that is reached is of this kind. -/
theorem Reached.isShut {w : World} (h : Reached w) : IsShut w := by
  induction h with
  | start serial project engineName config digest e unsignalled =>
    constructor <;> intro habsurd <;> cases habsurd
  | act hreached hact ih => exact ih.shift (.of_act? hact)

/-- A stream is over. -/
structure IsOver (w : World) : Prop where
  closed : w.stream.closed = true
  stopped : w.stream.worker.phase = .stopped
  invalid : w.stream.isValid w.engine = false
  /-- The worker takes no step, so it places nothing any more. -/
  still : ∀ e, Stream.step? e w.stream = none
  /-- No sending end of any mailbox is left. -/
  released : ∀ id, w.stream.holds id = false
  /-- Every connection finds what waits in its mailbox, and then the end. -/
  receipts_eq : ∀ id n, w.stream.receipts id n =
    ((w.stream.mailboxes.waiting id.number).take n).map .message ++
      List.replicate (n - (w.stream.mailboxes.waiting id.number).length) .ended
  openConnections_eq : w.stream.worker.counters.openConnections = 0
  channels_eq : w.stream.worker.counters.channels = 0
  /-- The engine holds no subscription of the stream. -/
  unserved : ¬ w.engine.signals.Serves w.stream.subscriber

/-- A world in which the worker has stopped is over. -/
theorem IsShut.isOver {w : World} (h : IsShut w) (hstopped : w.stream.worker.phase = .stopped) :
    w.IsOver := by
  have hclosed := h.closed hstopped
  have hworker := h.worker_eq hstopped
  have hreleased : ∀ id, w.stream.holds id = false := by
    intro id
    rw [Stream.holds, h.queue_eq hstopped, hworker]
    rfl
  exact
    { closed := hclosed
      stopped := hstopped
      invalid := by rw [Stream.isValid, hclosed]; rfl
      still := fun e => by simp [Stream.step?, Stream.attentive, hstopped]
      released := hreleased
      receipts_eq := fun id n => Stream.receipts_of_released (hreleased id) n
      openConnections_eq := by rw [hworker]; rfl
      channels_eq := by rw [hworker]; rfl
      unserved := h.unserved hclosed }

/-- From one world to another a stream stays as it is, except that mailboxes are emptied and new
ones get nothing. -/
structure Stays (w w' : World) : Prop where
  stream_eq : w'.stream = { w.stream with mailboxes := w'.stream.mailboxes }
  dwindles : w.stream.mailboxes.Dwindles w'.stream.mailboxes

theorem IsShut.stays_of_shift {w w' : World} (h : IsShut w)
    (hstopped : w.stream.worker.phase = .stopped) (hshift : Shift w w') : w.Stays w' := by
  have hover := h.isOver hstopped
  cases hshift with
  | others => exact ⟨rfl, .refl _⟩
  | mail hmail => exact ⟨rfl, hmail⟩
  | ask hopen =>
    rcases hopen with hopen | hphase
    · rw [hover.closed] at hopen
      cases hopen
    · exact absurd hstopped hphase
  | work hturn => exact absurd hstopped hturn.phase_ne_stopped
  | close hopen =>
    rw [hover.closed] at hopen
    cases hopen
  | cut =>
    have hstop : w.stream.stop = w.stream := by
      rw [Stream.stop, ← h.worker_eq hstopped, ← h.queue_eq hstopped]
    refine ⟨?_, ?_⟩
    · rw [hstop]
    · rw [hstop]
      exact .refl _

/-- What is over stays as it is. -/
theorem IsShut.stays {w w' : World} (h : IsShut w) (hstopped : w.stream.worker.phase = .stopped)
    (hleads : w.LeadsTo w') : w.Stays w' := by
  induction hleads with
  | refl => exact ⟨rfl, .refl _⟩
  | @tail w₁ w₂ hleads₁ hact ih =>
    obtain ⟨a, ha⟩ := hact
    have hstopped₁ : w₁.stream.worker.phase = .stopped := by rw [ih.stream_eq, hstopped]
    have hnext := (h.leadsTo hleads₁).stays_of_shift hstopped₁ (.of_late? ha)
    refine ⟨?_, ih.dwindles.trans hnext.dwindles⟩
    rw [hnext.stream_eq, ih.stream_eq]

/-! ## The worker stops by itself -/

/-- Some steps of the worker, and nothing else, lead to its end. -/
def Stops (w : World) : Prop :=
  ∃ n w', (List.replicate n Act.work).foldlM act? w = some w' ∧
    w'.stream.worker.phase = .stopped

namespace Stops

variable {w w' : World}

theorem of_work (hwork : w.act? .work = some w') (h : w'.Stops) : w.Stops := by
  obtain ⟨n, last, hlast, hstopped⟩ := h
  refine ⟨n + 1, last, ?_, hstopped⟩
  rw [List.replicate_succ, List.foldlM_cons, hwork]
  exact hlast

/-- A worker that looks out for the end of its stream stops at once. -/
theorem of_attentive (hclosed : w.stream.closed = true) (hattentive : w.stream.attentive = true) :
    w.Stops := by
  refine ⟨1, { w with stream := w.stream.stop }, ?_, rfl⟩
  have hstep : Stream.step? w.engine w.stream = some ⟨w.engine, w.stream.stop, []⟩ := by
    rw [Stream.step?, hclosed, hattentive]
    rfl
  simp [act?, hstep]

theorem act?_work {r : Worker.Result} (hattentive : w.stream.attentive = false)
    (hstep : w.stream.worker.passStep? w.stream.config.delivery w.engine.evaluator
      w.stream.mailboxes = some r) :
    w.act? .work = some { w with stream := w.stream.withResult r } := by
  have hnext : Stream.step? w.engine w.stream =
      some ⟨w.engine, w.stream.withResult r, r.effects⟩ := by
    unfold Stream.step? Stream.nextPassStep?
    rw [hattentive, Bool.and_false, if_neg Bool.false_ne_true, hstep]
    unfold Stream.attentive at hattentive
    cases hphase : w.stream.worker.phase with
    | idle | stalled => simp [hphase] at hattentive
    | stopped => simp [Worker.passStep?, hphase] at hstep
    | visiting | pushing => rfl
  rw [act?, hnext]
  rfl

/-- A push comes to its end or stalls, and then the worker goes on with the pass or stops. -/
theorem of_pushing {todo : List Place}
    (hvisiting : ∀ (w : World) (pass : Pass), w.stream.closed = true →
      w.stream.worker.phase = .visiting pass → pass.todo = todo → w.Stops)
    {waiting : List ConnectionId} {pass : Pass} {push : Push} (hclosed : w.stream.closed = true)
    (hphase : w.stream.worker.phase = .pushing pass push) (htodo : pass.todo = todo)
    (hwaiting : push.waiting = waiting) : w.Stops := by
  have hattentive : w.stream.attentive = false := by rw [Stream.attentive, hphase]
  induction waiting generalizing w push with
  | nil =>
    have hstep : w.stream.worker.passStep? w.stream.config.delivery w.engine.evaluator
        w.stream.mailboxes = some ⟨(w.stream.worker.endPush pass push).1, w.stream.mailboxes,
          (w.stream.worker.endPush pass push).2⟩ := by
      simp only [Worker.passStep?, hphase, hwaiting]
    exact of_work (act?_work hattentive hstep)
      (hvisiting _ (Worker.passAfter pass push) hclosed rfl htodo)
  | cons id rest ih =>
    have hstep : w.stream.worker.passStep? w.stream.config.delivery w.engine.evaluator
        w.stream.mailboxes = some (w.stream.worker.deliver w.stream.config.delivery
          w.stream.mailboxes pass push id rest) := by
      simp only [Worker.passStep?, hphase, hwaiting]
    refine of_work (act?_work hattentive hstep) ?_
    unfold Worker.deliver
    cases w.stream.mailboxes.attempt w.stream.config.delivery id.number with
    | waiting => exact of_attentive hclosed rfl
    | sent | dropped | disconnected => exact ih hclosed rfl rfl rfl

/-- A pass comes to its end or stalls. -/
theorem of_visiting {todo : List Place} {pass : Pass} (hclosed : w.stream.closed = true)
    (hphase : w.stream.worker.phase = .visiting pass) (htodo : pass.todo = todo) : w.Stops := by
  have hattentive : w.stream.attentive = false := by rw [Stream.attentive, hphase]
  induction todo generalizing w pass with
  | nil =>
    have hstep : w.stream.worker.passStep? w.stream.config.delivery w.engine.evaluator
        w.stream.mailboxes = some ⟨(w.stream.worker.endPass pass).1, w.stream.mailboxes,
          (w.stream.worker.endPass pass).2⟩ := by
      simp only [Worker.passStep?, hphase, htodo]
    refine of_work (act?_work hattentive hstep) (of_attentive hclosed ?_)
    rw [Stream.attentive, Stream.withResult, Worker.endPass_phase]
  | cons place rest ih =>
    have hstep : w.stream.worker.passStep? w.stream.config.delivery w.engine.evaluator
        w.stream.mailboxes = some ⟨w.stream.worker.visit w.engine.evaluator
          { pass with todo := rest } place, w.stream.mailboxes, []⟩ := by
      simp only [Worker.passStep?, hphase, htodo]
    have hrest : ∀ (w : World) (pass : Pass), w.stream.closed = true →
        w.stream.worker.phase = .visiting pass → pass.todo = rest → w.Stops :=
      fun w pass hclosed hphase htodo => ih hclosed hphase htodo (by rw [Stream.attentive, hphase])
    refine of_work (act?_work hattentive hstep) ?_
    rcases Worker.visit_cases w.stream.worker w.engine.evaluator { pass with todo := rest } place
      with ⟨hvisit, -⟩ | ⟨c, last, m, -, -, hvisit⟩
    · rw [hvisit]
      exact hrest _ _ hclosed rfl rfl
    · rw [hvisit]
      exact of_pushing hrest hclosed rfl rfl rfl

end Stops

/-- **The worker of a closed stream stops by itself**, wherever it was. -/
theorem stops_of_closed {w : World} (hclosed : w.stream.closed = true) : w.Stops := by
  cases hphase : w.stream.worker.phase with
  | idle => exact .of_attentive hclosed (by rw [Stream.attentive, hphase])
  | stalled pass push => exact .of_attentive hclosed (by rw [Stream.attentive, hphase])
  | visiting pass => exact .of_visiting hclosed hphase rfl
  | pushing pass push => exact .of_pushing (fun _ _ => .of_visiting) hclosed hphase rfl rfl
  | stopped => exact ⟨0, w, rfl, hphase⟩

/-! ## The end -/

/-- How the stream of a world comes to its end. -/
structure Ends (w : World) : Prop where
  /-- The worker can stop without anybody's help. -/
  stops : w.Stops
  /-- Where it has stopped, however it came to that, the stream is over. -/
  isOver : ∀ w', w.LeadsTo w' → w'.stream.worker.phase = .stopped → w'.IsOver
  /-- Afterwards the stream is over for good, and nothing is placed in any mailbox. -/
  isFinal : ∀ w' w'', w.LeadsTo w' → w'.stream.worker.phase = .stopped → w'.LeadsTo w'' →
    w''.IsOver ∧ w'.Stays w''

/-- **A closed stream comes to a clean end**, whatever waits in its queue, whatever its worker is in
the middle of, and whatever late clients still send. -/
theorem Reached.ends_once_closed {w₀ w : World} (hreached : Reached w₀) (hleads : w₀.LeadsTo w)
    (hclosed : w.stream.closed = true) : w.Ends where
  stops := stops_of_closed hclosed
  isOver w' hw' hstopped := ((hreached.isShut.leadsTo hleads).leadsTo hw').isOver hstopped
  isFinal w' w'' hw' hstopped hw'' := by
    have hshut : IsShut w' := (hreached.isShut.leadsTo hleads).leadsTo hw'
    have hstays : w'.Stays w'' := hshut.stays hstopped hw''
    have hstopped'' : w''.stream.worker.phase = .stopped := by rw [hstays.stream_eq, hstopped]
    exact ⟨(hshut.leadsTo hw'').isOver hstopped'', hstays⟩

/-- Several acts in a row lead from one world to another. -/
theorem LeadsTo.acts {w w' : World} {acts : List LateAct} (hacts : acts.foldlM late? w = some w') :
    w.LeadsTo w' :=
  foldlM_induct (fun h hact => h.tail ⟨_, hact⟩) .refl hacts

/-- A stream is closed while a delivery waits for room, commands wait in the queue and a change is
pending; one more client comes late. -/
theorem ends_while_stalled :
    ∃ w₀ w, Reached w₀ ∧ w₀.LeadsTo w ∧ w.stream.closed = true ∧
      (∃ pass push, w.stream.worker.phase = .stalled pass push) ∧ w.stream.queue.length = 3 ∧
      w.IsPending ∧ w.Ends := by
  let first : World :=
    ⟨(Stream.start 0 "p" "e" ⟨1, 4, .block, "s"⟩ (fun _ => 0) (.ofStore .unconfigured)).2,
      trialStream .block, 0⟩
  let set (b : Bool) : Act := .setFlag (.constant "f" (.bool b))
  let before : List Act :=
    [.connect (.flag "f") none, .work, set true] ++ List.replicate 3 .work ++
      [.connect .all none, .disconnect ⟨⟨0, 0⟩, .flag "f", 0⟩, set false, .close]
  let w₀ := (before.foldlM act? first).get (by decide)
  let w := ([LateAct.connect .all none].foldlM late? w₀).get (by decide)
  have hfirst : Reached first := .start ..
  have hreached : Reached w₀ := hfirst.acts (Option.some_get _).symm
  have hleads : w₀.LeadsTo w := .acts (Option.some_get _).symm
  have hclosed : w.stream.closed = true := by decide
  exact ⟨w₀, w, hreached, hleads, hclosed, ⟨_, _, rfl⟩, rfl, ⟨_, rfl, rfl⟩,
    hreached.ends_once_closed hleads hclosed⟩

end World

end FlagFanout
