import FlagFanout.Proofs.Engine.Subscribers
import FlagFanout.Proofs.Server.Following
import FlagFanout.Proofs.Stream.Run

/-!
# What goes on around a server

The streams and the engines of a fleet are not a server's alone. Clients use its streams, workers
run, engines change and have other subscribers, and others start streams of their own or close any.
`Fleet.act?` is one such act.

Two facts about it carry all that is said of servers later. A stream grows older: it stays of its
project and on its engine, and no engine takes a closed one in again (`Fleet.Ages`). And an engine
on which nobody else starts or closes streams, or subscribes, keeps the subscriptions of all streams
that run on it (`Fleet.Spares`).
-/

namespace FlagFanout

/-! ## Engines -/

namespace Engine

/-- What others do with an engine. -/
inductive Act where
  /-- The first half of a change of the configuration. -/
  | write (store : FlagStore)
  /-- The second half of a change of the configuration. -/
  | publish
  /-- Outages begin or end. -/
  | fail (keys : List String)
  /-- A client subscribes. -/
  | subscribe (name : String)
  /-- A client ends its subscription. -/
  | unsubscribe (name : String)
  /-- Somebody looks for a signal. -/
  | poll (receiver : Nat)
  /-- A receiver is dropped. -/
  | dropReceiver (receiver : Nat)

/-- The engine after an act of others. -/
def perform (e : Engine) : Act → Engine
  | .write store => { e with store }
  | .publish => e.publish
  | .fail keys => { e with failing := keys }
  | .subscribe name => e.subscribe (.client name)
  | .unsubscribe name => e.unsubscribe (.client name)
  | .poll receiver => (e.poll receiver).2
  | .dropReceiver receiver => e.dropReceiver receiver

/-- Whether an act takes no subscription and drops no receiver. -/
def Act.isQuiet : Act → Bool
  | .subscribe _ => false
  | .dropReceiver _ => false
  | _ => true

variable {e : Engine}

/-- Nothing that others do lets a stream subscribe. -/
theorem serves_of_perform {n : Nat} {a : Act}
    (h : (e.perform a).signals.Serves (.stream n)) : e.signals.Serves (.stream n) := by
  cases a with
  | write store => exact h
  | publish => exact h.of_publish
  | fail keys => exact h
  | subscribe name => exact h.of_subscribe (by simp)
  | unsubscribe name => exact h.of_unsubscribe.1
  | poll receiver => exact h.of_poll
  | dropReceiver receiver => exact h.of_dropReceiver

end Engine

/-- Nobody subscribes, no stream loses its subscription, and everybody still listens. -/
structure Signals.Thins (s s' : Signals) : Prop where
  allListen : s'.AllListen
  sublist : s'.subscribers.Sublist s.subscribers
  serves : ∀ n, s.Serves (.stream n) → s'.Serves (.stream n)

theorem Signals.Thins.of_subscribers_eq {s s' : Signals} (hlisten : s'.AllListen)
    (h : s'.subscribers = s.subscribers) : s.Thins s' where
  allListen := hlisten
  sublist := by rw [h]
  serves n hn := by
    rw [← mem_subscribers_iff] at hn ⊢
    rwa [h]

theorem Engine.thins_perform {e : Engine} (h : e.signals.AllListen) {a : Act}
    (hquiet : a.isQuiet = true) : e.signals.Thins (e.perform a).signals := by
  cases a with
  | write store => exact .of_subscribers_eq h rfl
  | publish => exact .of_subscribers_eq e.signals.allListen_publish h.subscribers_publish
  | fail keys => exact .of_subscribers_eq h rfl
  | subscribe name => cases hquiet
  | unsubscribe name =>
    have heq := e.signals.subscribers_unsubscribe (.client name)
    refine ⟨h.unsubscribe _, ?_, fun n hn => ?_⟩
    · change (e.signals.unsubscribe (.client name)).subscribers.Sublist _
      rw [heq]
      exact List.filter_sublist
    · rw [← Signals.mem_subscribers_iff] at hn ⊢
      change Subscriber.stream n ∈ (e.signals.unsubscribe (.client name)).subscribers
      rw [heq]
      exact List.mem_filter.2 ⟨hn, by simp⟩
  | poll receiver =>
    exact .of_subscribers_eq (h.poll receiver) (e.signals.subscribers_poll receiver)
  | dropReceiver receiver => cases hquiet

/-! ## Streams -/

namespace Stream

theorem close_fst (s : Stream) (e : Engine) : (s.close e).1 = { s with closed := true } := by
  unfold close
  split
  · next hclosed => rw [← hclosed]
  · rfl

theorem close_snd (s : Stream) (e : Engine) :
    (s.close e).2 = if s.closed then e else e.unsubscribe s.subscriber := by
  unfold close
  split <;> rfl

/-- A stream is the same as far as a server is concerned. -/
structure SameLabels (s s' : Stream) : Prop where
  serial_eq : s'.serial = s.serial
  project_eq : s'.project = s.project
  engine_eq : s'.engine = s.engine
  closed_eq : s'.closed = s.closed

/-- A client does not close a stream. -/
theorem closed_eq_of_isClient {s : Stream} {a : Act} {r : Stream × List Event}
    (h : s.act? a = some r) (hclient : a.isClient = true) : r.1.closed = s.closed := by
  obtain ⟨mailboxes, queue, heq⟩ := eq_of_isClient h hclient
  rw [heq]

end Stream

/-! ## Fleets -/

namespace Fleet

section Equations

variable (f : Fleet)

theorem engine_setEngine (name : String) (e : Engine) (name' : String) :
    (f.setEngine name e).engine name' = if name' = name then e else f.engine name' := by
  unfold engine setEngine
  rw [KeyMap.get?_insert]
  split <;> rfl

@[simp] theorem nextSerial_setStream (s : Stream) : (f.setStream s).nextSerial = f.nextSerial :=
  List.length_set

theorem nextSerial_spawn (project engineName : String) (config : StreamConfig) :
    (f.spawn project engineName config).nextSerial = f.nextSerial + 1 :=
  List.length_append

theorem engine_spawn (project engineName : String) (config : StreamConfig) (name : String) :
    (f.spawn project engineName config).engine name =
      if name = engineName then (f.engine engineName).subscribe (.stream f.nextSerial)
      else f.engine name :=
  engine_setEngine ..

variable {f} in
/-- Starting a stream lets nobody else subscribe. -/
theorem serves_of_spawn {project engineName : String} {config : StreamConfig} {name : String}
    {n : Nat}
    (h : ((f.spawn project engineName config).engine name).signals.Serves (.stream n)) :
    n = f.nextSerial ∧ name = engineName ∨ (f.engine name).signals.Serves (.stream n) := by
  rw [engine_spawn] at h
  split at h
  · next hname =>
    subst hname
    by_cases hnew : n = f.nextSerial
    · exact .inl ⟨hnew, rfl⟩
    · exact .inr (h.of_subscribe (by simp [hnew]))
  · exact .inr h

variable {f} in
theorem lt_nextSerial {n : Nat} {s : Stream} (h : f.stream? n = some s) : n < f.nextSerial :=
  (List.getElem?_eq_some_iff.1 h).1

end Equations

variable {f f' : Fleet}

/-- A stream that is closed stays where it is, and its engine forgets it. -/
theorem close_of_stream? (hnumbered : f.Numbered) {n : Nat} {s : Stream}
    (hs : f.stream? n = some s) :
    (∀ k, (f.close n).stream? k =
      if k = n then some { s with closed := true } else f.stream? k) ∧
    ∀ name, (f.close n).engine name =
      if name = s.engine ∧ s.closed = false then (f.engine name).unsubscribe (.stream n)
      else f.engine name := by
  have hserial := hnumbered n s hs
  have hclose : f.close n = (f.setStream { s with closed := true }).setEngine s.engine
      (if s.closed then f.engine s.engine else (f.engine s.engine).unsubscribe (.stream n)) := by
    have hsubscriber : s.subscriber = .stream n := congrArg Subscriber.stream hserial
    simp only [Fleet.close, hs, Stream.close_fst, Stream.close_snd, hsubscriber]
  rw [hclose]
  refine ⟨stream?_setStream hs hserial, fun name => ?_⟩
  rw [engine_setEngine]
  by_cases hname : name = s.engine
  · subst hname
    cases s.closed with
    | true => simp
    | false => simp
  · rw [if_neg hname, if_neg fun hand => hname hand.1]
    rfl

theorem close_of_stream?_eq_none {n : Nat} (h : f.stream? n = none) : f.close n = f := by
  rw [Fleet.close, h]

@[simp] theorem nextSerial_close (f : Fleet) (n : Nat) : (f.close n).nextSerial = f.nextSerial := by
  unfold Fleet.close
  split
  · rfl
  · exact nextSerial_setStream ..

/-! ### Acts of others -/

/-- What others do with a fleet. -/
inductive Act where
  /-- A client of a stream opens, closes, reads or drops a connection. -/
  | client (serial : Nat) (a : Stream.Act)
  /-- The worker of a stream takes a step. -/
  | work (serial : Nat)
  /-- The worker of a stream begins a pass over its channels in some order. -/
  | begin (serial : Nat) (places : List Place)
  /-- The worker of a closed stream is cut off, whatever it is in the middle of. -/
  | cut (serial : Nat)
  /-- Somebody closes a stream. -/
  | close (serial : Nat)
  /-- Somebody starts a stream. -/
  | spawn (project engineName : String) (config : StreamConfig)
  | engine (name : String) (a : Engine.Act)

/-- One act; `none` where it has to wait, there is nothing to do, or it is not for clients. -/
def act? (f : Fleet) : Act → Option Fleet
  | .client serial a =>
    if a.isClient then
      (f.stream? serial).bind fun s => (s.act? a).map fun r => f.setStream r.1
    else none
  | .work serial =>
    (f.stream? serial).bind fun s => (Stream.step? (f.engine s.engine) s).map fun next =>
      (f.setStream next.stream).setEngine s.engine next.engine
  | .begin serial places =>
    (f.stream? serial).bind fun s => (Stream.begin? (f.engine s.engine) s places).map fun next =>
      (f.setStream next.stream).setEngine s.engine next.engine
  | .cut serial =>
    (f.stream? serial).bind fun s => if s.closed then some (f.setStream s.stop) else none
  | .close serial => some (f.close serial)
  | .spawn project engineName config => some (f.spawn project engineName config)
  | .engine name a => some (f.setEngine name ((f.engine name).perform a))

/-- The serial numbers of the streams that are started by an act. -/
def Act.started (f : Fleet) : Act → List Nat
  | .spawn _ _ _ => [f.nextSerial]
  | _ => []

theorem Act.eq_of_mem_started {a : Act} {n : Nat} (h : n ∈ a.started f) : n = f.nextSerial := by
  cases a with
  | spawn => exact List.mem_singleton.1 h
  | client | work | begin | cut | close | engine => cases h

/-- Whether an act leaves an engine to the streams that run on it: nobody closes a stream, starts
one there, subscribes there or drops a receiver. -/
def Act.spares (name : String) : Act → Bool
  | .close _ => false
  | .spawn _ engineName _ => engineName ≠ name
  | .engine name' a => name' ≠ name || a.isQuiet
  | _ => true

/-- The cases of an act of others. -/
inductive Stir (f : Fleet) : Act → Fleet → Prop
  /-- A stream changes in place. -/
  | stream {a : Act} {n : Nat} {s s' : Stream} (hstarted : a.started f = [])
    (hs : f.stream? n = some s) (hlabels : s.SameLabels s') : Stir f a (f.setStream s')
  /-- A worker takes a step, and may take a signal from its engine. -/
  | work {a : Act} {n : Nat} {s s' : Stream} {e : Engine} (hstarted : a.started f = [])
    (hs : f.stream? n = some s) (hlabels : s.SameLabels s')
    (hengine : e = f.engine s.engine ∨ ∃ receiver, e = ((f.engine s.engine).poll receiver).2) :
    Stir f a ((f.setStream s').setEngine s.engine e)
  | close (n : Nat) : Stir f (.close n) (f.close n)
  | spawn (project engineName : String) (config : StreamConfig) :
    Stir f (.spawn project engineName config) (f.spawn project engineName config)
  | engine (name : String) (a : Engine.Act) :
    Stir f (.engine name a) (f.setEngine name ((f.engine name).perform a))

/-- A step of the worker is a case of its own. -/
theorem stir_of_turn {a : Act} {n : Nat} {s : Stream} {next : Stream.Step} {events : List Event}
    (hstarted : a.started f = []) (hs : f.stream? n = some s)
    (hturn : Stream.Turn (f.engine s.engine) s next events) :
    f.Stir a ((f.setStream next.stream).setEngine s.engine next.engine) := by
  obtain ⟨hserial, hproject, hengine⟩ := (Stream.Move.work hturn).label_eq
  refine .work hstarted hs ⟨hserial, hproject, hengine, hturn.closed_eq⟩ ?_
  rcases hturn.engine_cases with hsame | ⟨hpoll, -⟩
  · exact .inl hsame
  · exact .inr ⟨s.receiver, by rw [hpoll]⟩

/-- **An act of others is one of these cases.** -/
theorem stir_of_act? {a : Act} (h : f.act? a = some f') : f.Stir a f' := by
  cases a with
  | client serial a =>
    simp only [act?] at h
    split at h
    · next hclient =>
      obtain ⟨s, hs, hrest⟩ := Option.bind_eq_some_iff.1 h
      obtain ⟨r, hr, rfl⟩ := Option.map_eq_some_iff.1 hrest
      obtain ⟨hserial, hproject, hengine⟩ := (Stream.move_of_act? hr).label_eq
      exact .stream rfl hs ⟨hserial, hproject, hengine, Stream.closed_eq_of_isClient hr hclient⟩
    · cases h
  | work serial =>
    obtain ⟨s, hs, hrest⟩ := Option.bind_eq_some_iff.1 h
    obtain ⟨next, hnext, rfl⟩ := Option.map_eq_some_iff.1 hrest
    exact stir_of_turn rfl hs (Stream.turn_of_step? hnext)
  | begin serial places =>
    obtain ⟨s, hs, hrest⟩ := Option.bind_eq_some_iff.1 h
    obtain ⟨next, hnext, rfl⟩ := Option.map_eq_some_iff.1 hrest
    exact stir_of_turn rfl hs (Stream.turn_of_begin? hnext)
  | cut serial =>
    obtain ⟨s, hs, hrest⟩ := Option.bind_eq_some_iff.1 h
    split at hrest
    · cases hrest
      exact .stream rfl hs ⟨rfl, rfl, rfl, rfl⟩
    · cases hrest
  | close serial =>
    cases h
    exact .close serial
  | spawn project engineName config =>
    cases h
    exact .spawn project engineName config
  | engine name a =>
    cases h
    exact .engine name a

/-! ### Growing older -/

/-- No stream is started or opened again, and an engine holds no subscription of a stream that it
did not hold before, nor that of one of its own that was just closed. -/
structure Ages (f f' : Fleet) : Prop where
  next_eq : f'.nextSerial = f.nextSerial
  numbered : f'.Numbered
  keeps : f.Keeps f'
  closed : ∀ n s s', f.stream? n = some s → f'.stream? n = some s' → s.closed = true →
    s'.closed = true
  serves : ∀ name n, (f'.engine name).signals.Serves (.stream n) →
    (f.engine name).signals.Serves (.stream n) ∧
      ∀ s s', f.stream? n = some s → f'.stream? n = some s' → s.engine = name →
        s'.closed = s.closed

/-- One stream changes, without being opened again. -/
theorem Ages.of_stream (hnumbered : f.Numbered) {n : Nat} {s : Stream}
    (hs : f.stream? n = some s) (s' : Stream) (hserial : s'.serial = s.serial)
    (hproject : s'.project = s.project) (hengine : s'.engine = s.engine)
    (hclosed : s.closed = true → s'.closed = true)
    (hnext : f'.nextSerial = f.nextSerial)
    (hstream : ∀ k, f'.stream? k = if k = n then some s' else f.stream? k)
    (hserves : ∀ name k, (f'.engine name).signals.Serves (.stream k) →
      (f.engine name).signals.Serves (.stream k) ∧
        (k = n → s.engine = name → s'.closed = s.closed)) : f.Ages f' where
  next_eq := hnext
  numbered k t ht := by
    rw [hstream] at ht
    split at ht
    · next heq =>
      cases ht
      rw [hserial, hnumbered n s hs, heq]
    · exact hnumbered k t ht
  keeps k t ht := by
    rw [hstream]
    split
    · next heq =>
      subst heq
      rw [hs] at ht
      cases ht
      exact ⟨s', rfl, hproject, hengine⟩
    · exact ⟨t, ht, rfl, rfl⟩
  closed k t t' ht ht' hold := by
    rw [hstream] at ht'
    split at ht'
    · next heq =>
      subst heq
      rw [hs] at ht
      cases ht
      cases ht'
      exact hclosed hold
    · rw [ht] at ht'
      cases ht'
      exact hold
  serves name k hserved := by
    obtain ⟨hold, hsame⟩ := hserves name k hserved
    refine ⟨hold, fun t t' ht ht' hname => ?_⟩
    rw [hstream] at ht'
    split at ht'
    · next heq =>
      subst heq
      rw [hs] at ht
      cases ht
      cases ht'
      exact hsame rfl hname
    · rw [ht] at ht'
      cases ht'
      rfl

/-- One stream changes in place, and nobody subscribes. -/
theorem Ages.of_sameLabels (hnumbered : f.Numbered) {n : Nat} {s s' : Stream}
    (hs : f.stream? n = some s) (hlabels : s.SameLabels s')
    (hstreams : f'.streams = (f.setStream s').streams)
    (hserves : ∀ name k, (f'.engine name).signals.Serves (.stream k) →
      (f.engine name).signals.Serves (.stream k)) : f.Ages f' := by
  have hserial : s'.serial = n := hlabels.serial_eq.trans (hnumbered n s hs)
  have hnext : f'.nextSerial = f.nextSerial := by
    rw [nextSerial, hstreams]
    exact f.nextSerial_setStream s'
  refine .of_stream hnumbered hs s' hlabels.serial_eq hlabels.project_eq hlabels.engine_eq
    hlabels.closed_eq.trans hnext (fun k => ?_)
    fun name k hserved => ⟨hserves name k hserved, fun _ _ => hlabels.closed_eq⟩
  rw [stream?, hstreams]
  exact stream?_setStream hs hserial k

/-- Engines change around the streams. -/
theorem Ages.of_engines (hnumbered : f.Numbered) (hstreams : f'.streams = f.streams)
    (hserves : ∀ name n, (f'.engine name).signals.Serves (.stream n) →
      (f.engine name).signals.Serves (.stream n)) : f.Ages f' := by
  have hstream : ∀ n, f'.stream? n = f.stream? n := fun n => by rw [stream?, hstreams, stream?]
  refine ⟨by rw [nextSerial, hstreams, nextSerial], fun n s hs => ?_, fun n s hs => ?_,
    fun n s s' hs hs' hclosed => ?_, fun name n hserved => ⟨hserves name n hserved, ?_⟩⟩
  · exact hnumbered n s (hstream n ▸ hs)
  · exact ⟨s, (hstream n).trans hs, rfl, rfl⟩
  · rw [hstream, hs] at hs'
    cases hs'
    exact hclosed
  · intro s s' hs hs' _
    rw [hstream, hs] at hs'
    cases hs'
    rfl

theorem Ages.refl (hnumbered : f.Numbered) : f.Ages f :=
  .of_engines hnumbered rfl fun _ _ => id

theorem ages_close (hnumbered : f.Numbered) (n : Nat) : f.Ages (f.close n) := by
  cases hs : f.stream? n with
  | none =>
    rw [close_of_stream?_eq_none hs]
    exact .refl hnumbered
  | some s =>
    obtain ⟨hstream, hengine⟩ := close_of_stream? hnumbered hs
    refine .of_stream hnumbered hs { s with closed := true } rfl rfl rfl (fun _ => rfl)
      (f.nextSerial_close n) hstream ?_
    intro name k hserved
    rw [hengine] at hserved
    split at hserved
    · next hname =>
      obtain ⟨hold, hne⟩ := hserved.of_unsubscribe
      exact ⟨hold, fun heq => absurd (congrArg Subscriber.stream heq) hne⟩
    · next hname =>
      refine ⟨hserved, fun _ heq => ?_⟩
      cases hclosed : s.closed with
      | true => rfl
      | false => exact absurd ⟨heq.symm, hclosed⟩ hname

/-- Others make a fleet older, or start a stream. -/
theorem Stir.ages (hnumbered : f.Numbered) {a : Act} (hstir : f.Stir a f') :
    a.started f = [] ∧ f.Ages f' ∨
      ∃ project engineName config, a.started f = [f.nextSerial] ∧
        f' = f.spawn project engineName config := by
  cases hstir with
  | stream hstarted hs hlabels =>
    exact .inl ⟨hstarted, .of_sameLabels hnumbered hs hlabels rfl fun _ _ => id⟩
  | work hstarted hs hlabels hengine =>
    refine .inl ⟨hstarted, .of_sameLabels hnumbered hs hlabels rfl fun name k hserved => ?_⟩
    rw [engine_setEngine] at hserved
    split at hserved
    · next hname =>
      subst hname
      rcases hengine with rfl | ⟨receiver, rfl⟩
      · exact hserved
      · exact hserved.of_poll
    · exact hserved
  | close n => exact .inl ⟨rfl, ages_close hnumbered n⟩
  | spawn project engineName config => exact .inr ⟨project, engineName, config, rfl, rfl⟩
  | engine name a =>
    refine .inl ⟨rfl, .of_engines hnumbered rfl fun name' n hserved => ?_⟩
    rw [engine_setEngine] at hserved
    split at hserved
    · next hname =>
      subst hname
      exact Engine.serves_of_perform hserved
    · exact hserved

/-! ### Engines that are spared -/

/-- Nobody subscribes to an engine, every stream that runs on it keeps its subscription, and none is
started there, opened or closed. -/
structure Spares (f f' : Fleet) (name : String) : Prop where
  thins : (f.engine name).signals.Thins (f'.engine name).signals
  stream : ∀ n s', f'.stream? n = some s' → s'.engine = name →
    ∃ s, f.stream? n = some s ∧ s.engine = name ∧ s.closed = s'.closed

/-- Acts of others that spare an engine leave its subscriptions to its streams. -/
theorem Stir.spares {a : Act} {name : String} (hnumbered : f.Numbered)
    (hlisten : (f.engine name).signals.AllListen) (hstir : f.Stir a f')
    (hspares : a.spares name = true) : f.Spares f' name := by
  have hrefl : (f.engine name).signals.Thins (f.engine name).signals :=
    .of_subscribers_eq hlisten rfl
  -- a stream that changes in place is not started, opened or closed
  have hstream : ∀ {n : Nat} {s s' : Stream}, f.stream? n = some s → s.SameLabels s' →
      ∀ k t', (f.setStream s').stream? k = some t' → t'.engine = name →
        ∃ t, f.stream? k = some t ∧ t.engine = name ∧ t.closed = t'.closed := by
    intro n s s' hs hlabels k t' ht' hname
    rw [stream?_setStream hs (hlabels.serial_eq.trans (hnumbered n s hs))] at ht'
    split at ht'
    · next heq =>
      cases ht'
      exact ⟨s, heq ▸ hs, hlabels.engine_eq.symm.trans hname, hlabels.closed_eq.symm⟩
    · exact ⟨t', ht', hname, rfl⟩
  cases hstir with
  | stream hstarted hs hlabels => exact ⟨hrefl, hstream hs hlabels⟩
  | @work _ n s s' e hstarted hs hlabels hengine =>
    refine ⟨?_, hstream hs hlabels⟩
    rw [engine_setEngine]
    split
    · next hname =>
      subst hname
      rcases hengine with rfl | ⟨receiver, rfl⟩
      · exact hrefl
      · exact .of_subscribers_eq (hlisten.poll receiver) (Signals.subscribers_poll _ receiver)
    · exact hrefl
  | close n => cases hspares
  | spawn project engineName config =>
    have hne : engineName ≠ name := of_decide_eq_true hspares
    refine ⟨?_, fun n s' hs' hname => ?_⟩
    · rw [engine_spawn, if_neg (Ne.symm hne)]
      exact hrefl
    · rw [stream?_spawn] at hs'
      split at hs'
      · cases hs'
        exact absurd hname hne
      · exact ⟨s', hs', hname, rfl⟩
  | engine name' a =>
    refine ⟨?_, fun n s' hs' hname => ⟨s', hs', hname, rfl⟩⟩
    rw [engine_setEngine]
    split
    · next hname =>
      subst hname
      have hquiet : a.isQuiet = true := by simpa [Act.spares] using hspares
      exact Engine.thins_perform hlisten hquiet
    · exact hrefl

end Fleet

end FlagFanout
