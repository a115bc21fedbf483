import FlagFanout.Proofs.Engine.Signals
import FlagFanout.Proofs.Stream.Accounting
import FlagFanout.Proofs.Stream.Refresh

/-!
# No change is lost

An engine that signals a change skips every subscriber for which a signal is pending, and a stream
makes one pass for however many changes. A `World` is an engine with a stream of it, in which
operations of the engine, acts of clients, steps of the worker and doings of other subscribers come
in any order. An operation of the engine writes the store and then signals; it may come as one act
or cut in two, with anything in between.

`World.Reached.current` says that nothing is lost: when the stream is open, no signal is pending, no
operation of the engine is half done and the worker is in no pass, every channel agrees with what
the engine serves (`Snapshot.IsCurrent`). The invariant behind it is `World.Awake`: as long as some
channel does not agree, a signal is pending or still to come, or the pass has the channel before it.
It holds because every channel is attended to after a change (`World.Alert`).
-/

namespace FlagFanout

/-! ## What a step of the worker does to a channel -/

/-- What a snapshot is of. -/
def Snapshot.selector : Snapshot → Selector
  | flag key _ => .flag key
  | flags _ => .all

theorem Snapshot.selector_initial (ev : Evaluator) (selector : Selector)
    (context : Option Context) : (initial ev selector context).selector = selector := by
  cases selector <;> rfl

theorem Snapshot.selector_refresh (ev : Evaluator) (context : Option Context) (old : Snapshot) :
    (old.refresh ev context).1.selector = old.selector := by
  cases old with
  | flags last => rfl
  | flag key p =>
    cases heval : ev.evaluate key context with
    | error err => simp only [refresh, heval]
    | ok e =>
      simp only [refresh, heval]
      split <;> rfl

/-- Where a channel comes from that a step of the worker leaves in the index. -/
inductive Channel.Origin (e : Engine) (s : Stream) (next : Stream.Step) (place : Place) :
    Channel → Prop
  /-- It held the same before, and a pass that has still to come there is not over it. -/
  | kept {c c' : Channel} (hfind : s.worker.index.find? place.1 place.2 = some c)
    (hlast : c'.last = c.last) (hcontext : c'.context = c.context)
    (htodo : place ∈ s.worker.phase.todo → place ∈ next.stream.worker.phase.todo) :
    Origin e s next place c'
  /-- It was made in this step. -/
  | made {c' : Channel} (hlast : c'.last = .initial e.evaluator place.1 c'.context) :
    Origin e s next place c'
  /-- It was visited in this step. -/
  | visited {c c' : Channel} (hfind : s.worker.index.find? place.1 place.2 = some c)
    (hlast : c'.last = (c.last.refresh e.evaluator c.context).1)
    (hcontext : c'.context = c.context) : Origin e s next place c'

namespace Stream.Turn

variable {e : Engine} {s : Stream} {next : Step} {events : List Event}

/-- A step after which the channels hold what they held, and that passes by none of them. -/
theorem origin_of_keeps (hkeeps : s.worker.index.Keeps next.stream.worker.index)
    (htodo : ∀ place, place ∈ s.worker.phase.todo → place ∈ next.stream.worker.phase.todo)
    {place : Place} {c' : Channel}
    (h : next.stream.worker.index.find? place.1 place.2 = some c') :
    Channel.Origin e s next place c' := by
  obtain ⟨c, hfind, hlast, hcontext⟩ := hkeeps place c' h
  exact .kept hfind hlast hcontext (htodo place)

/-- **Every channel after a step** held the same before, was made, or was visited. -/
theorem origin (hturn : Turn e s next events) {place : Place} {c' : Channel}
    (h : next.stream.worker.index.find? place.1 place.2 = some c') :
    Channel.Origin e s next place c' := by
  cases hturn with
  | stop => cases h
  | @refuse id selector discriminator context queue c hphase hqueue hchannel =>
    refine origin_of_keeps (s := s) ?_ (fun _ hp => hp) h
    rw [← hchannel]
    exact s.worker.keeps_collect_channelFor e.evaluator (selector, discriminator) context
  | @join id selector discriminator context queue c out hphase hqueue hchannel =>
    cases hfind : s.worker.index.find? selector discriminator with
    | some c₀ =>
      rw [Worker.channelFor_of_find? hfind] at hchannel
      refine origin_of_keeps (s := s) ?_ (fun _ hp => hp) h
      exact ChannelIndex.keeps_put (selector, discriminator) hfind (hchannel ▸ rfl) (hchannel ▸ rfl)
    | none =>
      rw [Worker.channelFor_of_find?_eq_none hfind] at hchannel
      have hput := (ChannelIndex.find?_put s.worker.index (selector, discriminator) place
        (c.join id)).symm.trans h
      by_cases heq : place = (selector, discriminator)
      · rw [if_pos heq] at hput
        cases hput
        exact .made (by rw [heq, ← hchannel]; rfl)
      · rw [if_neg heq] at hput
        exact .kept hput rfl rfl fun hp => hp
  | ignore => exact .kept h rfl rfl fun hp => hp
  | @depart id selector discriminator queue c hphase hqueue hfind =>
    have hput := ChannelIndex.keeps_put (d := c.leave id) (selector, discriminator) hfind rfl rfl
    refine origin_of_keeps (s := s) ?_ (fun _ hp => hp) h
    exact hput.trans (ChannelIndex.keeps_collect _ (selector, discriminator))
  | begin _ _ _ hplaces =>
    exact .kept h rfl rfl fun _ => hplaces.mem_iff.2 (ChannelIndex.mem_places_of_find? h)
  | @pass pass place' todo hphase htodo hquiet =>
    by_cases heq : place = place'
    · rw [heq] at h
      exact .visited (heq ▸ h) (Snapshot.refresh_eq_none (hquiet c' h)).symm rfl
    · refine .kept h rfl rfl fun hp => ?_
      have hmem : place ∈ place' :: todo := by
        rw [hphase] at hp
        exact htodo ▸ hp
      exact List.mem_of_ne_of_mem heq hmem
  | @produce pass place' todo c last m hphase htodo hfind hrefresh =>
    by_cases heq : place = place'
    · subst heq
      rw [ChannelIndex.find?_put_self] at h
      cases h
      exact .visited hfind (by rw [hrefresh]) rfl
    · rw [ChannelIndex.find?_put, if_neg heq] at h
      refine .kept h rfl rfl fun hp => ?_
      have hmem : place ∈ place' :: todo := by
        rw [hphase] at hp
        exact htodo ▸ hp
      exact List.mem_of_ne_of_mem heq hmem
  | @endPass pass hphase htodo =>
    refine origin_of_keeps ?_ (fun place hp => ?_) h
    · rw [Worker.endPass_index]
      exact Worker.keeps_collected _ _
    · rw [hphase] at hp
      change place ∈ pass.todo at hp
      rw [htodo] at hp
      cases hp
  | serve hphase => exact .kept h rfl rfl fun hp => by rw [hphase] at hp; exact hp
  | stall hphase => exact .kept h rfl rfl fun hp => by rw [hphase] at hp; exact hp
  | resume hphase => exact .kept h rfl rfl fun hp => by rw [hphase] at hp; exact hp
  | @endPush pass push hphase =>
    refine origin_of_keeps (Worker.keeps_endPush _ _ _) (fun place hp => ?_) h
    rw [hphase] at hp
    rw [Worker.endPush_phase]
    exact hp

end Stream.Turn

/-! ## Worlds -/

/-- An engine and a stream that subscribed to it. -/
structure World where
  engine : Engine
  stream : Stream
  /-- How many operations of the engine wrote the store and did not signal yet. -/
  unsignalled : Nat

namespace World

/-- What can happen in a world. -/
inductive Act where
  | replaceFlags (flags : List Flag)
  | setFlag (f : Flag)
  | removeFlag (key : String)
  /-- The first half of an operation of the engine. -/
  | write (store : FlagStore)
  /-- The second half of an operation of the engine. -/
  | signal
  | connect (selector : Selector) (context : Option Context)
  | disconnect (c : Connection)
  /-- The connection with a number looks into its mailbox. -/
  | take (number : Nat)
  /-- The receiving end of the connection with a number is dropped. -/
  | leave (number : Nat)
  | work
  /-- The worker begins a pass over the channels in some order. -/
  | begin (places : List Place)
  | close
  /-- Somebody else subscribes. -/
  | subscribe (who : Subscriber)
  /-- Somebody else ends a subscription. -/
  | unsubscribe (who : Subscriber)
  /-- Somebody else looks for a signal. -/
  | poll (receiver : Nat)
  /-- Somebody else's receiver is dropped. -/
  | dropReceiver (receiver : Nat)

/-- The world after an act of a client of the stream. -/
def client? (w : World) (a : Stream.Act) : Option World :=
  (w.stream.act? a).map fun r => { w with stream := r.1 }

/-- One act; `none` where it has to wait, there is nothing to do, or it is not for others. -/
def act? (w : World) : Act → Option World
  | .replaceFlags flags => some { w with engine := w.engine.replaceFlags flags }
  | .setFlag f => some { w with engine := w.engine.setFlag f }
  | .removeFlag key => some { w with engine := (w.engine.removeFlag key).2 }
  | .write store =>
    some { w with engine := { w.engine with store }, unsignalled := w.unsignalled + 1 }
  | .signal => some { w with engine := w.engine.publish, unsignalled := w.unsignalled - 1 }
  | .connect selector context => w.client? (.connect selector context)
  | .disconnect c => w.client? (.disconnect c)
  | .take number => w.client? (.take number)
  | .leave number => w.client? (.leave number)
  | .work =>
    (Stream.step? w.engine w.stream).map fun next =>
      { w with engine := next.engine, stream := next.stream }
  | .begin places =>
    (Stream.begin? w.engine w.stream places).map fun next =>
      { w with engine := next.engine, stream := next.stream }
  | .close =>
    let (stream, engine) := w.stream.close w.engine
    some { w with engine, stream }
  | .subscribe who =>
    if who = w.stream.subscriber then none
    else some { w with engine := w.engine.subscribe who }
  | .unsubscribe who =>
    if who = w.stream.subscriber then none
    else some { w with engine := w.engine.unsubscribe who }
  | .poll receiver =>
    if receiver = w.stream.receiver then none
    else some { w with engine := (w.engine.poll receiver).2 }
  | .dropReceiver receiver =>
    if receiver = w.stream.receiver then none
    else some { w with engine := w.engine.dropReceiver receiver }

/-- A new world came to `w` by acts in some order. -/
inductive Reached : World → Prop
  | start (serial : Nat) (project engineName : String) (config : StreamConfig)
    (digest : List UInt8 → UInt64) (e : Engine) (unsignalled : Nat) :
    Reached
      ⟨(Stream.start serial project engineName config digest e).2,
        (Stream.start serial project engineName config digest e).1, unsignalled⟩
  | act {w w' : World} {a : Act} (hreached : Reached w) (hact : w.act? a = some w') : Reached w'

/-! ## The invariant -/

/-- The engine holds the subscription of the stream, and the stream its receiver. -/
def IsSubscribed (w : World) : Prop :=
  ∃ f, w.engine.signals.feed? w.stream.receiver = some f ∧ f.IsLive w.stream.subscriber

/-- A signal is pending for the stream. -/
def IsPending (w : World) : Prop :=
  ∃ f, w.engine.signals.feed? w.stream.receiver = some f ∧ f.pending = true

/-- Every channel either agrees with the engine or is one to which the pass has still to come. -/
def IsCovered (w : World) : Prop :=
  ∀ (place : Place) c, w.stream.worker.index.find? place.1 place.2 = some c →
    c.last.IsCurrent w.engine.evaluator c.context ∨ place ∈ w.stream.worker.phase.todo

/-- As long as a stream is open, it will hear of every change. -/
structure Awake (w : World) : Prop where
  subscribed : w.stream.closed = false → w.IsSubscribed
  covered : w.stream.closed = false → w.IsPending ∨ 0 < w.unsignalled ∨ w.IsCovered
  selector_eq : ∀ (place : Place) c, w.stream.worker.index.find? place.1 place.2 = some c →
    c.last.selector = place.1

/-- Every channel either was made or visited since the last change or is one to which the pass has
still to come. -/
def IsAttended (w : World) : Prop :=
  ∀ (place : Place) c, w.stream.worker.index.find? place.1 place.2 = some c →
    c.last.IsFresh w.engine.evaluator c.context ∨ place ∈ w.stream.worker.phase.todo

/-- As long as a stream is open, it will attend to every change. -/
structure Alert (w : World) : Prop where
  subscribed : w.stream.closed = false → w.IsSubscribed
  attended : w.stream.closed = false → w.IsPending ∨ 0 < w.unsignalled ∨ w.IsAttended
  selector_eq : ∀ (place : Place) c, w.stream.worker.index.find? place.1 place.2 = some c →
    c.last.selector = place.1

namespace Alert

variable {w w' : World}

/-- What was made or visited since the last change agrees with the engine. -/
theorem awake (h : Alert w) : Awake w where
  subscribed := h.subscribed
  covered hopen := (h.attended hopen).imp_right fun hrest =>
    hrest.imp_right fun hattended place c hc => (hattended place c hc).imp_left (·.isCurrent)
  selector_eq := h.selector_eq

/-- Where the subscription, the evaluations and the worker stay the same, so does the rest. -/
theorem of_same (h : Alert w) (hclosed : w'.stream.closed = false → w.stream.closed = false)
    (hsubscriber : w'.stream.subscriber = w.stream.subscriber)
    (hfeed : ∀ f, w.engine.signals.feed? w.stream.receiver = some f →
      f.IsLive w.stream.subscriber → w'.engine.signals.feed? w'.stream.receiver = some f)
    (hev : w'.engine.evaluator = w.engine.evaluator) (hunsignalled : w'.unsignalled = w.unsignalled)
    (hworker : w'.stream.worker = w.stream.worker) : Alert w' where
  subscribed hopen := by
    obtain ⟨f, hf, hlive⟩ := h.subscribed (hclosed hopen)
    exact ⟨f, hfeed f hf hlive, hsubscriber ▸ hlive⟩
  attended hopen := by
    obtain ⟨f, hf, hlive⟩ := h.subscribed (hclosed hopen)
    rcases h.attended (hclosed hopen) with ⟨f', hf', hpending⟩ | hunsignalled' | hattended
    · rw [hf] at hf'
      cases hf'
      exact .inl ⟨f, hfeed f hf hlive, hpending⟩
    · exact .inr (.inl (hunsignalled ▸ hunsignalled'))
    · refine .inr (.inr fun place c hc => ?_)
      rw [hworker] at hc ⊢
      rw [hev]
      exact hattended place c hc
  selector_eq := hworker ▸ h.selector_eq

/-- A published change is pending for the stream. -/
theorem publish (h : Alert w) (hstream : w'.stream = w.stream)
    (hsignals : w'.engine.signals = w.engine.signals.publish) : Alert w' := by
  have hfeed : ∀ f, w.engine.signals.feed? w.stream.receiver = some f →
      w'.engine.signals.feed? w'.stream.receiver = some f.notify := by
    intro f hf
    rw [hsignals, hstream, Signals.feed?_publish, hf]
    rfl
  refine
    { subscribed := fun hopen => ?_
      attended := fun hopen => ?_
      selector_eq := hstream ▸ h.selector_eq }
  · obtain ⟨f, hf, hlive⟩ := h.subscribed (hstream ▸ hopen)
    exact ⟨_, hfeed f hf, hstream ▸ hlive.notify⟩
  · obtain ⟨f, hf, hlive⟩ := h.subscribed (hstream ▸ hopen)
    exact .inl ⟨_, hfeed f hf, by rw [hlive.notify_eq]⟩

/-- A store written without a signal leaves the signal to come. -/
theorem write (h : Alert w) (store : FlagStore) :
    Alert { w with engine := { w.engine with store }, unsignalled := w.unsignalled + 1 } where
  subscribed := h.subscribed
  attended _ := .inr (.inl (Nat.succ_pos _))
  selector_eq := h.selector_eq

theorem turn (h : Alert w) {next : Stream.Step} {events : List Event}
    (hturn : Stream.Turn w.engine w.stream next events) :
    Alert { w with engine := next.engine, stream := next.stream } := by
  have hopen : next.stream.closed = false → w.stream.closed = false := fun hopen =>
    hturn.closed_eq ▸ hopen
  have hsubscriber : next.stream.subscriber = w.stream.subscriber :=
    congrArg Subscriber.stream hturn.serial_eq
  have hselector : ∀ (place : Place) c', next.stream.worker.index.find? place.1 place.2 = some c' →
      c'.last.selector = place.1 := by
    intro place c' hc'
    cases hturn.origin hc' with
    | kept hfind hlast hcontext htodo => rw [hlast, h.selector_eq place _ hfind]
    | made hlast => rw [hlast, Snapshot.selector_initial]
    | visited hfind hlast hcontext =>
      rw [hlast, Snapshot.selector_refresh, h.selector_eq place _ hfind]
  rcases hturn.engine_cases with hengine | ⟨hpoll, places, hplaces, hworker⟩
  · refine ⟨fun hclosed => ?_, fun hclosed => ?_, hselector⟩
    · obtain ⟨f, hf, hlive⟩ := h.subscribed (hopen hclosed)
      refine ⟨f, ?_, hsubscriber ▸ hlive⟩
      rw [hengine, hturn.receiver_eq]
      exact hf
    · rcases h.attended (hopen hclosed) with ⟨f, hf, hpending⟩ | hunsignalled | hattended
      · refine .inl ⟨f, ?_, hpending⟩
        rw [hengine, hturn.receiver_eq]
        exact hf
      · exact .inr (.inl hunsignalled)
      · refine .inr (.inr fun place c' hc' => ?_)
        rw [hengine]
        cases hturn.origin hc' with
        | kept hfind hlast hcontext htodo =>
          rw [hlast, hcontext]
          exact (hattended place _ hfind).imp_right htodo
        | made hlast =>
          rw [hlast]
          exact .inl (.made _)
        | visited hfind hlast hcontext =>
          rw [hlast, hcontext]
          exact .inl (.refreshed _)
  · -- the signal is taken, and the pass that begins has every channel before it
    refine ⟨fun hclosed => ?_, fun _ => .inr (.inr fun place c' hc' => .inr ?_), hselector⟩
    · obtain ⟨f, hf, hlive⟩ := h.subscribed (hopen hclosed)
      refine ⟨f.poll.2, ?_, hsubscriber ▸ hlive.poll⟩
      have hengine : next.engine = (w.engine.poll w.stream.receiver).2 := by rw [hpoll]
      have hfeed := Signals.feed?_poll w.engine.signals w.stream.receiver w.stream.receiver
      rw [if_pos rfl, hf] at hfeed
      rw [hengine, hturn.receiver_eq]
      exact hfeed
    · change next.stream.worker.index.find? place.1 place.2 = some c' at hc'
      rw [hworker] at hc' ⊢
      exact hplaces.mem_iff.2 (ChannelIndex.mem_places_of_find? hc')

/-- A client's doings leave the feed and the index of the stream alone. -/
theorem client (h : Alert w) {a : Stream.Act} (hclient : a.isClient = true)
    (hact : w.client? a = some w') : Alert w' := by
  obtain ⟨r, hr, rfl⟩ := Option.map_eq_some_iff.1 hact
  obtain ⟨mailboxes, queue, hs⟩ := Stream.eq_of_isClient hr hclient
  rw [hs]
  exact h.of_same id rfl (fun f hf _ => hf) rfl rfl rfl

theorem close (h : Alert w) :
    Alert { w with
      engine := (w.stream.close w.engine).2
      stream := (w.stream.close w.engine).1 } := by
  cases hclosed : w.stream.closed with
  | true =>
    have hsame : w.stream.close w.engine = (w.stream, w.engine) := by
      rw [Stream.close, hclosed, if_pos rfl]
    rw [hsame]
    exact h
  | false =>
    have hnow : w.stream.close w.engine =
        ({ w.stream with closed := true }, w.engine.unsubscribe w.stream.subscriber) := by
      simp [Stream.close, hclosed]
    rw [hnow]
    refine ⟨fun hopen => ?_, fun hopen => ?_, h.selector_eq⟩
    · cases hopen
    · cases hopen

/-- Somebody else's doings leave the feed of the stream alone. -/
theorem others (h : Alert w) {e : Engine} (hev : e.evaluator = w.engine.evaluator)
    (hfeed : ∀ f, w.engine.signals.feed? w.stream.receiver = some f →
      f.IsLive w.stream.subscriber → e.signals.feed? w.stream.receiver = some f) :
    Alert { w with engine := e } :=
  h.of_same id rfl hfeed hev rfl rfl

theorem feed?_unsubscribe_of_ne {s : Signals} {who who' : Subscriber} {receiver : Nat} {f : Feed}
    (hne : who' ≠ who) (hf : s.feed? receiver = some f) (hlive : f.IsLive who) :
    (s.unsubscribe who').feed? receiver = some f := by
  rw [Signals.feed?_unsubscribe, hf, Option.map_some, if_neg]
  rw [hlive.subscriber_eq]
  exact Ne.symm hne

theorem act (h : Alert w) {a : Act} (hact : w.act? a = some w') : Alert w' := by
  cases a with
  | replaceFlags flags =>
    cases hact
    exact h.publish rfl rfl
  | setFlag f =>
    cases hact
    exact h.publish rfl rfl
  | removeFlag key =>
    cases hact
    rw [Engine.removeFlag]
    split
    · exact h.publish rfl rfl
    · exact h
  | write store =>
    cases hact
    exact h.write store
  | signal =>
    cases hact
    exact h.publish rfl rfl
  | connect | disconnect | take | leave => exact h.client rfl hact
  | work =>
    obtain ⟨next, hnext, rfl⟩ := Option.map_eq_some_iff.1 hact
    exact h.turn (Stream.turn_of_step? hnext)
  | begin places =>
    obtain ⟨next, hnext, rfl⟩ := Option.map_eq_some_iff.1 hact
    exact h.turn (Stream.turn_of_begin? hnext)
  | close =>
    cases hact
    exact h.close
  | subscribe who =>
    simp only [act?] at hact
    split at hact
    · cases hact
    · next hne =>
      cases hact
      refine h.others rfl fun f hf hlive => ?_
      have hlt := Signals.lt_of_feed? hf
      exact (Signals.feed?_subscribe_of_lt _ who _ hlt).trans
        (feed?_unsubscribe_of_ne hne hf hlive)
  | unsubscribe who =>
    simp only [act?] at hact
    split at hact
    · cases hact
    · next hne =>
      cases hact
      exact h.others rfl fun f hf hlive => feed?_unsubscribe_of_ne hne hf hlive
  | poll receiver =>
    simp only [act?] at hact
    split at hact
    · cases hact
    · next hne =>
      cases hact
      refine h.others rfl fun f hf _ => ?_
      refine (Signals.feed?_poll w.engine.signals w.stream.receiver receiver).trans ?_
      rw [if_neg (Ne.symm hne), hf]
  | dropReceiver receiver =>
    simp only [act?] at hact
    split at hact
    · cases hact
    · next hne =>
      cases hact
      refine h.others rfl fun f hf _ => ?_
      exact (Signals.feed?_dropReceiver_of_ne _ _ _ (Ne.symm hne)).trans hf

end Alert

theorem Reached.alert {w : World} (h : Reached w) : Alert w := by
  induction h with
  | start serial project engineName config digest e unsignalled =>
    refine ⟨fun _ => ⟨_, Signals.feed?_subscribe_self .., rfl, rfl, rfl⟩,
      fun _ => .inr (.inr fun place c hc => (nomatch hc)), fun place c hc => nomatch hc⟩
  | act hreached hact ih => exact ih.act hact

theorem Reached.awake {w : World} (h : Reached w) : Awake w := h.alert.awake

/-- **No change is lost**: when the stream is open, no signal is pending, no operation of the engine
is half done and the worker is in no pass, every channel holds what its selector is of, and every
value that the engine serves. -/
theorem Reached.current {w : World} (h : Reached w) (hopen : w.stream.closed = false)
    (hsignal : (w.engine.poll w.stream.receiver).1 ≠ .signal) (hdone : w.unsignalled = 0)
    (hpass : w.stream.worker.phase.pass? = none) (place : Place) (c : Channel)
    (hfind : w.stream.worker.index.find? place.1 place.2 = some c) :
    c.last.selector = place.1 ∧ c.last.IsCurrent w.engine.evaluator c.context := by
  refine ⟨h.awake.selector_eq place c hfind, ?_⟩
  rcases h.awake.covered hopen with ⟨f, hf, hpending⟩ | hunsignalled | hcovered
  · refine absurd ?_ hsignal
    refine (Signals.poll_fst_of_feed? w.engine.signals _ hf).trans ?_
    rw [Feed.poll_of_pending hpending]
  · omega
  · refine (hcovered place c hfind).resolve_right fun htodo => ?_
    rw [Phase.todo, hpass] at htodo
    cases htodo

/-- Where no signal is pending or to come and no pass is under way, every channel was made or
visited since the last change. -/
theorem Reached.fresh {w : World} (h : Reached w) (hopen : w.stream.closed = false)
    (hsignal : (w.engine.poll w.stream.receiver).1 ≠ .signal) (hdone : w.unsignalled = 0)
    (hpass : w.stream.worker.phase.pass? = none) {place : Place} {c : Channel}
    (hfind : w.stream.worker.index.find? place.1 place.2 = some c) :
    c.last.IsFresh w.engine.evaluator c.context := by
  rcases h.alert.attended hopen with ⟨f, hf, hpending⟩ | hunsignalled | hattended
  · refine absurd ?_ hsignal
    refine (Signals.poll_fst_of_feed? w.engine.signals _ hf).trans ?_
    rw [Feed.poll_of_pending hpending]
  · omega
  · refine (hattended place c hfind).resolve_right fun htodo => ?_
    rw [Phase.todo, hpass] at htodo
    cases htodo

/-- Several acts in a row. -/
theorem Reached.acts {w w' : World} (h : Reached w) {acts : List Act}
    (hacts : acts.foldlM act? w = some w') : Reached w' :=
  foldlM_induct .act h hacts

/-- A flag changes twice before the worker takes the signal, and once more during the pass. -/
theorem current_after_changes :
    ∃ w c, Reached w ∧ w.stream.closed = false ∧
      (w.engine.poll w.stream.receiver).1 ≠ .signal ∧ w.unsignalled = 0 ∧
      w.stream.worker.phase.pass? = none ∧
      w.stream.worker.index.find? (.flag "f") 0 = some c ∧
      c.last.selector = .flag "f" ∧ c.last.IsCurrent w.engine.evaluator c.context := by
  let first : World :=
    ⟨(Stream.start 0 "p" "e" ⟨1, 4, .dropNewest, "s"⟩ (fun _ => 0) (.ofStore .unconfigured)).2,
      trialStream .dropNewest, 0⟩
  let set (b : Bool) : Act := .setFlag (.constant "f" (.bool b))
  let acts : List Act :=
    [.connect (.flag "f") none, .work, set true, set false, .work, .work, set true] ++
      List.replicate 8 .work
  let w := (acts.foldlM act? first).get (by decide)
  have hfirst : Reached first := .start ..
  have hreached : Reached w := hfirst.acts (Option.some_get _).symm
  have hopen : w.stream.closed = false := by decide
  have hsignal : (w.engine.poll w.stream.receiver).1 ≠ .signal := by decide
  have hdone : w.unsignalled = 0 := by decide
  have hpass : w.stream.worker.phase.pass? = none := by rfl
  obtain ⟨c, hfind⟩ : ∃ c, w.stream.worker.index.find? (.flag "f") 0 = some c :=
    Option.isSome_iff_exists.1 (by decide)
  exact ⟨w, c, hreached, hopen, hsignal, hdone, hpass, hfind,
    hreached.current hopen hsignal hdone hpass (.flag "f", 0) c hfind⟩

end World

end FlagFanout
