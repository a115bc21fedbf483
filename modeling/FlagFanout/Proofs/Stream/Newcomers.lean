import FlagFanout.Proofs.Stream.Joining
import FlagFanout.Proofs.Stream.Shutdown

/-!
# What newcomers are greeted with

A newcomer that makes its channel is greeted with what the engine serves. One that joins a channel
is greeted with what the channel last delivered, and a channel delivers anew only where a value
moved: a new variation of the same value is no change. So the greeting depends on who is already
there, but not in its values.

`Snapshot.IsFresh.exists_payload` says how far a state that was made or refreshed agrees with the
engine, and `World.Course.recorded` that what it holds beyond that is something the engine served
before; a `Course` is a world that was reached together with all that its engine ever served on the
way. The main statement is `World.Course.greets`.
-/

namespace FlagFanout

/-! ## Payloads by key -/

/-- What is served for a key to those who watch a selector. -/
def Evaluator.served? (ev : Evaluator) (selector : Selector) (context : Option Context)
    (key : String) : Option Evaluation :=
  match selector with
  | .flag key' => if key = key' then (ev.evaluate key' context).toOption else none
  | .all => ((ev.evaluateAll context).get? key).bind Except.toOption

/-- The payload of a key in a message to those who watch a selector. -/
def Message.payload? (selector : Selector) (key : String) : Message → Option Payload
  | flag p => if selector = .flag key then some p else none
  | flags ps => ps.get? key

namespace Snapshot

/-- The payload that was last delivered for a key. -/
def payload? (key : String) : Snapshot → Option Payload
  | flag key' p => if key = key' then some p else none
  | flags ps => ps.get? key

theorem payload?_message (last : Snapshot) (key : String) :
    last.message.payload? last.selector key = last.payload? key := by
  cases last with
  | flag key' p => simp [message, selector, Message.payload?, payload?, eq_comm]
  | flags ps => rfl

variable {ev : Evaluator} {context : Option Context} {key : String} {e : Evaluation}

theorem ok_of_toOption {r : Except FlagError Evaluation} (h : r.toOption = some e) : r = .ok e := by
  cases r with
  | error err => cases h
  | ok e' => exact congrArg Except.ok (Option.some.inj h)

/-- What is served for a single flag. -/
theorem served?_flag {key' : String} (h : ev.served? (.flag key') context key = some e) :
    key = key' ∧ ev.evaluate key' context = .ok e := by
  simp only [Evaluator.served?] at h
  split at h
  · next heq => exact ⟨heq, ok_of_toOption h⟩
  · cases h

/-- What is served in a scan of all flags. -/
theorem served?_all (h : ev.served? .all context key = some e) :
    (ev.evaluateAll context).get? key = some (.ok e) := by
  obtain ⟨r, hr, he⟩ := Option.bind_eq_some_iff.1 h
  rw [hr, ok_of_toOption he]

/-- A state that was just made holds what is served. -/
theorem payload?_initial {selector : Selector} (he : ev.served? selector context key = some e) :
    (initial ev selector context).payload? key = some (.ofEvaluation e) := by
  cases selector with
  | flag key' =>
    obtain ⟨rfl, heval⟩ := served?_flag he
    rw [initial, payload?, if_pos rfl, heval, payloadOf]
  | all => simp [initial, payload?, served?_all he, Except.toOption]

/-- **A state that was made or refreshed** holds for every key what is served, or something with the
same value. -/
theorem IsFresh.exists_payload {last : Snapshot} (h : last.IsFresh ev context)
    (he : ev.served? last.selector context key = some e) :
    ∃ p, last.payload? key = some p ∧ (p = .ofEvaluation e ∨ p.hasSameValue e = true) := by
  cases h with
  | made selector =>
    rw [selector_initial] at he
    exact ⟨_, payload?_initial he, .inl rfl⟩
  | refreshed old =>
    rw [selector_refresh] at he
    cases old with
    | flag key' p =>
      obtain ⟨rfl, heval⟩ := served?_flag he
      simp only [refresh, heval]
      by_cases hsame : p.hasSameValue e = true
      · exact ⟨p, by simp [hsame, payload?], .inr hsame⟩
      · exact ⟨_, by simp [hsame, payload?], .inl rfl⟩
    | flags ps =>
      have hresult := served?_all he
      change ∃ p, (scan ps (ev.evaluateAll context).toList).last.get? key = some p ∧ _
      rw [last_scan, KeyMap.get?_overlay, get?_changed_scan, hresult, moved?]
      by_cases hsame : (ps.get? key).any (·.hasSameValue e) = true
      · obtain ⟨p, hp, hvalue⟩ := (Option.any_eq_true ..).1 hsame
        exact ⟨p, by rw [if_pos hsame, Option.none_or, hp], .inr hvalue⟩
      · exact ⟨_, by rw [if_neg hsame, Option.some_or], .inl rfl⟩

/-! ## Payloads of the past -/

/-- Whatever was delivered with a value was served at some moment of the past. -/
def IsRecorded (past : List Evaluator) (context : Option Context) (last : Snapshot) : Prop :=
  ∀ key p, last.payload? key = some p → p = .unavailable ∨
    ∃ ev ∈ past, ∃ e, ev.served? last.selector context key = some e ∧ p = .ofEvaluation e

variable {past : List Evaluator}

theorem IsRecorded.mono {past' : List Evaluator} {last : Snapshot}
    (h : last.IsRecorded past context) (hsub : past ⊆ past') : last.IsRecorded past' context :=
  fun key p hp => (h key p hp).imp_right fun ⟨ev, hev, hserved⟩ => ⟨ev, hsub hev, hserved⟩

theorem isRecorded_initial (hev : ev ∈ past) (selector : Selector) :
    (initial ev selector context).IsRecorded past context := by
  intro key p hp
  rw [selector_initial]
  cases selector with
  | flag key' =>
    simp only [initial, payload?] at hp
    split at hp
    · next heq =>
      subst heq
      cases heval : ev.evaluate key context with
      | error err =>
        rw [heval] at hp
        exact .inl (Option.some.inj hp).symm
      | ok e =>
        rw [heval] at hp
        exact .inr ⟨ev, hev, e, by simp [Evaluator.served?, heval, Except.toOption],
          (Option.some.inj hp).symm⟩
    · cases hp
  | all =>
    simp only [initial, payload?, KeyMap.get?_filterMap] at hp
    obtain ⟨r, hr, hrest⟩ := Option.bind_eq_some_iff.1 hp
    obtain ⟨e, he, rfl⟩ := Option.map_eq_some_iff.1 hrest
    exact .inr ⟨ev, hev, e, by rw [Evaluator.served?, hr, Option.bind_some, he], rfl⟩

/-- A refresh keeps what was there or takes what is served now. -/
theorem IsRecorded.refresh {old : Snapshot} (h : old.IsRecorded past context) (hev : ev ∈ past) :
    (old.refresh ev context).1.IsRecorded past context := by
  intro key p hp
  rw [selector_refresh]
  cases old with
  | flag key' q =>
    cases heval : ev.evaluate key' context with
    | error err =>
      simp only [Snapshot.refresh, heval] at hp
      exact h key p hp
    | ok e =>
      by_cases hsame : q.hasSameValue e = true
      · simp only [Snapshot.refresh, heval, if_pos hsame] at hp
        exact h key p hp
      · simp only [Snapshot.refresh, heval, if_neg hsame, payload?] at hp
        split at hp
        · next heq =>
          subst heq
          refine .inr ⟨ev, hev, e, ?_, (Option.some.inj hp).symm⟩
          simp [selector, Evaluator.served?, heval, Except.toOption]
        · cases hp
  | flags ps =>
    change (scan ps (ev.evaluateAll context).toList).last.get? key = some p at hp
    rw [last_scan, KeyMap.get?_overlay, get?_changed_scan, Option.or_eq_some_iff] at hp
    rcases hp with hnew | ⟨-, hold⟩
    · obtain ⟨e, hresult, rfl, -⟩ := moved?_eq_some hnew
      exact .inr ⟨ev, hev, e, by simp [selector, Evaluator.served?, hresult, Except.toOption], rfl⟩
    · exact h key p hold

end Snapshot

/-! ## Worlds with their past -/

namespace World

/-- A new world came to `w` by acts in some order, and `past` is what its engine served before the
first of them and after each. -/
inductive Course : World → List Evaluator → Prop
  | start (serial : Nat) (project engineName : String) (config : StreamConfig)
    (digest : List UInt8 → UInt64) (e : Engine) (unsignalled : Nat) :
    Course
      ⟨(Stream.start serial project engineName config digest e).2,
        (Stream.start serial project engineName config digest e).1, unsignalled⟩ [e.evaluator]
  | act {w w' : World} {past : List Evaluator} {a : Act} (hcourse : Course w past)
    (hact : w.act? a = some w') : Course w' (past ++ [w'.engine.evaluator])

variable {w w' : World} {past : List Evaluator}

theorem Reached.exists_course (h : Reached w) : ∃ past, Course w past := by
  induction h with
  | start serial project engineName config digest e unsignalled =>
    exact ⟨_, .start serial project engineName config digest e unsignalled⟩
  | act hreached hact ih =>
    obtain ⟨past, hcourse⟩ := ih
    exact ⟨_, hcourse.act hact⟩

/-- The stream of a world is one that came there by acts of its own. -/
theorem exists_run_of_act? {log : List Event} (h : Run w.stream log) {a : Act}
    (hact : w.act? a = some w') : ∃ log', Run w'.stream log' := by
  have hclient : ∀ {a : Stream.Act}, w.client? a = some w' → ∃ log', Run w'.stream log' := by
    intro a ha
    obtain ⟨r, hr, rfl⟩ := Option.map_eq_some_iff.1 ha
    exact ⟨_, .act h hr⟩
  cases a with
  | connect | disconnect | take | leave => exact hclient hact
  | work =>
    obtain ⟨next, hnext, rfl⟩ := Option.map_eq_some_iff.1 hact
    have hwork : w.stream.act? (.work w.engine) =
        some (next.stream, w.stream.observe w.engine next) := by
      rw [Stream.act?, hnext, Option.map_some]
    exact ⟨_, .act h hwork⟩
  | begin places =>
    obtain ⟨next, hnext, rfl⟩ := Option.map_eq_some_iff.1 hact
    have hbegin : w.stream.act? (.begin w.engine places) =
        some (next.stream, w.stream.observe w.engine next) := by
      rw [Stream.act?, hnext, Option.map_some]
    exact ⟨_, .act h hbegin⟩
  | close =>
    cases hact
    exact ⟨_, .act (a := .close w.engine) h rfl⟩
  | replaceFlags | setFlag | removeFlag | write | signal =>
    cases hact
    exact ⟨log, h⟩
  | subscribe | unsubscribe | poll | dropReceiver =>
    simp only [act?] at hact
    split at hact
    · cases hact
    · cases hact
      exact ⟨log, h⟩

theorem Reached.exists_run (h : Reached w) : ∃ log, Run w.stream log := by
  induction h with
  | start serial project engineName config digest e unsignalled => exact ⟨[], .start ..⟩
  | act hreached hact ih =>
    obtain ⟨log, hrun⟩ := ih
    exact exists_run_of_act? hrun hact

namespace Course

theorem reached (h : Course w past) : Reached w := by
  induction h with
  | start serial project engineName config digest e unsignalled => exact .start ..
  | act hcourse hact ih => exact ih.act hact

/-- What is served now is the last of the past. -/
theorem evaluator_mem (h : Course w past) : w.engine.evaluator ∈ past := by
  cases h with
  | start => exact List.mem_singleton_self _
  | act => exact List.mem_append_right _ (List.mem_singleton_self _)

/-- What the channels last delivered was served at some moment. -/
theorem recorded (h : Course w past) {place : Place} {c : Channel}
    (hfind : w.stream.worker.index.find? place.1 place.2 = some c) :
    c.last.IsRecorded past c.context := by
  induction h generalizing place c with
  | start => cases hfind
  | @act w w' past a hcourse hact ih =>
    have hnow := hcourse.evaluator_mem
    refine Snapshot.IsRecorded.mono ?_ (List.subset_append_left _ _)
    cases Shift.of_act? hact with
    | others | mail | ask | close => exact ih hfind
    | cut => cases hfind
    | work hturn =>
      cases hturn.origin hfind with
      | kept hold hlast hcontext =>
        rw [hlast, hcontext]
        exact ih hold
      | made hlast =>
        rw [hlast]
        exact Snapshot.isRecorded_initial hnow place.1
      | visited hold hlast hcontext =>
        rw [hlast, hcontext]
        exact (ih hold).refresh hnow

end Course

/-! ## Greetings -/

/-- What a message to a newcomer at a place says of what the engine serves to it. -/
structure Greets (w : World) (past : List Evaluator) (place : Place) (context : Option Context)
    (m : Message) : Prop where
  /-- Whoever makes the channel gets what is served. -/
  exact_of_made : w.stream.worker.index.find? place.1 place.2 = none →
    ∀ key e, w.engine.evaluator.served? place.1 context key = some e →
      m.payload? place.1 key = some (.ofEvaluation e)
  /-- Whoever joins gets what is served, or something with the same value. -/
  value_eq : ∀ key e, w.engine.evaluator.served? place.1 context key = some e →
    ∃ p, m.payload? place.1 key = some p ∧ (p = .ofEvaluation e ∨ p.hasSameValue e = true)
  /-- It is something that was served to the same context before. -/
  recorded : ∀ key p, m.payload? place.1 key = some p → p = .unavailable ∨
    ∃ ev ∈ past, ∃ e, ev.served? place.1 context key = some e ∧ p = .ofEvaluation e

/-- The state of the channel of a newcomer, between two jobs and with no signal pending. -/
theorem Course.greets_channelFor (h : Course w past) (hopen : w.stream.closed = false)
    (hsignal : (w.engine.poll w.stream.receiver).1 ≠ .signal) (hdone : w.unsignalled = 0)
    (hpass : w.stream.worker.phase.pass? = none) {place : Place} {context : Option Context}
    (hsame : ∀ c, w.stream.worker.index.find? place.1 place.2 = some c → c.context = context) :
    w.Greets past place context
      (w.stream.worker.channelFor w.engine.evaluator place.1 place.2 context).last.message := by
  cases hfind : w.stream.worker.index.find? place.1 place.2 with
  | none =>
    rw [Worker.channelFor_of_find?_eq_none hfind]
    set last := Snapshot.initial w.engine.evaluator place.1 context with hlast
    have hselector : last.selector = place.1 := Snapshot.selector_initial ..
    have hpayload : ∀ key, last.message.payload? place.1 key = last.payload? key := fun key => by
      rw [← hselector, last.payload?_message]
    refine ⟨fun _ key e he => ?_, fun key e he => ?_, fun key p hp => ?_⟩
    · exact (hpayload key).trans (Snapshot.payload?_initial he)
    · exact ⟨_, (hpayload key).trans (Snapshot.payload?_initial he), .inl rfl⟩
    · have hrecorded : last.IsRecorded past context :=
        Snapshot.isRecorded_initial h.evaluator_mem place.1
      rw [← hselector]
      exact hrecorded key p ((hpayload key).symm.trans hp)
  | some c =>
    rw [Worker.channelFor_of_find? hfind]
    obtain rfl := hsame c hfind
    have hselector : c.last.selector = place.1 := h.reached.alert.selector_eq place c hfind
    have hpayload : ∀ key, c.last.message.payload? place.1 key = c.last.payload? key := by
      intro key
      rw [← hselector, c.last.payload?_message]
    have hfresh := h.reached.fresh hopen hsignal hdone hpass hfind
    refine ⟨fun hnone => ?_, fun key e he => ?_, fun key p hp => ?_⟩
    · rw [hfind] at hnone
      cases hnone
    · rw [hpayload]
      exact hfresh.exists_payload (hselector ▸ he)
    · rw [← hselector]
      exact h.recorded hfind key p ((hpayload key).symm.trans hp)

/-- **A newcomer is greeted with the current values**, whoever is there already. While the worker is
between two jobs and no signal is pending or to come, it gets one message: exactly what the engine
serves if it makes its channel, and otherwise what the engine served to the same context at some
moment, with the values of now. -/
theorem Course.greets (h : Course w past) (hopen : w.stream.closed = false)
    (hsignal : (w.engine.poll w.stream.receiver).1 ≠ .signal) (hdone : w.unsignalled = 0)
    (hidle : w.stream.worker.phase = .idle) {layer : ConfigLayer}
    (hconfig : layer.finalize = .ok w.stream.config) {id : ConnectionId} {selector : Selector}
    {discriminator : UInt64} {context : Option Context}
    (hcommand : .established id selector discriminator context ∈ w.stream.queue)
    (hsame : ∀ c, w.stream.worker.index.find? selector discriminator = some c →
      c.context = context) {box : Mailbox} (hbox : w.stream.mailboxes.get? id.number = some box)
    (hlistening : box.listening = true) :
    ∃ r m, w.stream.worker.handle w.stream.config.delivery w.engine.evaluator w.stream.mailboxes
        (.established id selector discriminator context) = some r ∧
      .placed id m ∈ r.effects ∧
      r.mailboxes.get? id.number = some { box with messages := [m] } ∧
      w.Greets past (selector, discriminator) context m := by
  obtain ⟨log, hrun⟩ := h.reached.exists_run
  have hjoins := hrun.joins_wholly hconfig hidle hcommand w.stream.config.delivery
    w.engine.evaluator
  obtain ⟨r, hhandle, hseated⟩ := hjoins.seated_of_listening box hbox hlistening
  refine ⟨r, _, hhandle, hseated.effects_eq ▸ List.mem_cons_self, ?_,
    h.greets_channelFor hopen hsignal hdone (by rw [hidle]; rfl) hsame⟩
  rw [hseated.mailbox_eq, hbox, Option.map_some]

/-- Several acts in a row. -/
theorem Course.acts (h : Course w past) {acts : List Act} (hacts : acts.foldlM act? w = some w') :
    ∃ past', Course w' past' :=
  foldlM_induct (P := fun w => ∃ past, Course w past)
    (fun ⟨_, hcourse⟩ hact => ⟨_, hcourse.act hact⟩) ⟨past, h⟩ hacts

/-- A flag gets another variation of the value that it has while somebody watches it. Then two
newcomers wait: one for the same flag, and one for all flags. -/
def renamed : Option World :=
  let first : World :=
    ⟨(Stream.start 0 "p" "e" ⟨1, 4, .block, "s"⟩ (fun _ => 0) (.ofStore .unconfigured)).2,
      trialStream .block, 0⟩
  let serve (variation : String) : Act := .setFlag (.ofVariant "f" ⟨variation, .bool true⟩)
  [serve "a", .connect (.flag "f") none, .work, .work, .work, .work, serve "b", .work, .work, .work,
    .connect (.flag "f") none, .connect .all none].foldlM act? first

/-- The newcomer that joins gets the value of now with the variation of then, and the one that makes
its channel gets both of now. -/
theorem greets_beside_member :
    ∃ w past m m', Course w past ∧ w.stream.worker.index.members = [⟨0, 0⟩] ∧
      w.Greets past (.flag "f", 0) none m ∧ m = .flag ⟨some (.bool true), "a"⟩ ∧
      w.Greets past (.all, 0) none m' ∧
      m'.payload? .all "f" = some (.ofEvaluation ⟨.bool true, "b"⟩) := by
  let w := renamed.get (by decide +kernel)
  let layer : ConfigLayer := ⟨some 1, some 4, some .block, some "s"⟩
  obtain ⟨past, hcourse⟩ : ∃ past, Course w past :=
    (Course.start 0 "p" "e" ⟨1, 4, .block, "s"⟩ (fun _ => 0) (.ofStore .unconfigured) 0).acts
      (Option.some_get _).symm
  have hopen : w.stream.closed = false := by decide +kernel
  have hsignal : (w.engine.poll w.stream.receiver).1 ≠ .signal := by decide +kernel
  have hdone : w.unsignalled = 0 := by decide +kernel
  have hidle : w.stream.worker.phase = .idle := by rfl
  have hconfig : layer.finalize = .ok w.stream.config := by rfl
  have hqueue : w.stream.queue =
      [.established ⟨0, 1⟩ (.flag "f") 0 none, .established ⟨0, 2⟩ .all 0 none] := by rfl
  have hbox : w.stream.mailboxes.get? 1 = some ⟨1, [], true⟩ := by decide +kernel
  have hbox' : w.stream.mailboxes.get? 2 = some ⟨1, [], true⟩ := by decide +kernel
  have hcontext : ∀ c, w.stream.worker.index.find? (.flag "f") 0 = some c → c.context = none := by
    have hall : (w.stream.worker.index.find? (.flag "f") 0).all (·.context = none) = true := by
      decide +kernel
    intro c hc
    rw [hc] at hall
    exact of_decide_eq_true hall
  have hnone : w.stream.worker.index.find? .all 0 = none := by decide +kernel
  obtain ⟨r, m, hr, -, hmail, hgreets⟩ := hcourse.greets hopen hsignal hdone hidle hconfig
    (by rw [hqueue]; exact .head _) hcontext hbox rfl
  obtain ⟨r', m', -, -, -, hgreets'⟩ := hcourse.greets hopen hsignal hdone hidle hconfig
    (by rw [hqueue]; exact .tail _ (.head _)) (fun c hc => absurd (hnone.symm.trans hc) (by simp))
    hbox' rfl
  refine ⟨w, past, m, m', hcourse, by decide +kernel, hgreets, ?_, hgreets',
    hgreets'.exact_of_made hnone "f" ⟨.bool true, "b"⟩ (by decide +kernel)⟩
  have hgot : ((w.stream.worker.handle w.stream.config.delivery w.engine.evaluator
      w.stream.mailboxes (.established ⟨0, 1⟩ (.flag "f") 0 none)).bind
        (·.mailboxes.get? 1)).map (·.messages) = some [.flag ⟨some (.bool true), "a"⟩] := by
    decide +kernel
  rw [hr, Option.bind_some, hmail, Option.map_some] at hgot
  exact List.head_eq_of_cons_eq (Option.some.inj hgot)

/-- A newcomer that joins need not get the variation that is served. -/
theorem not_exact_of_joining :
    ¬ ∀ w : World, Reached w → w.stream.closed = false →
      (w.engine.poll w.stream.receiver).1 ≠ .signal → w.unsignalled = 0 →
      w.stream.worker.phase = .idle → ∀ id selector discriminator context,
      .established id selector discriminator context ∈ w.stream.queue →
      (∀ c, w.stream.worker.index.find? selector discriminator = some c → c.context = context) →
      ∀ r m, w.stream.worker.handle w.stream.config.delivery w.engine.evaluator
        w.stream.mailboxes (.established id selector discriminator context) = some r →
      .placed id m ∈ r.effects →
      ∀ key e, w.engine.evaluator.served? selector context key = some e →
        m.payload? selector key = some (.ofEvaluation e) := by
  intro hexact
  let w := renamed.get (by decide +kernel)
  have hreached : Reached w :=
    (Reached.start 0 "p" "e" ⟨1, 4, .block, "s"⟩ (fun _ => 0) (.ofStore .unconfigured) 0).acts
      (Option.some_get _).symm
  have hcontext : ∀ c, w.stream.worker.index.find? (.flag "f") 0 = some c → c.context = none := by
    have hany : (w.stream.worker.index.find? (.flag "f") 0).all (·.context = none) = true := by
      decide +kernel
    intro c hc
    rw [hc] at hany
    exact of_decide_eq_true hany
  let stale : Payload := ⟨some (.bool true), "a"⟩
  let handled := w.stream.worker.handle w.stream.config.delivery w.engine.evaluator
    w.stream.mailboxes (.established ⟨0, 1⟩ (.flag "f") 0 none)
  have hplaced : handled.any (.placed ⟨0, 1⟩ (.flag stale) ∈ ·.effects) = true := by decide +kernel
  obtain ⟨r, hr, hmem⟩ := (Option.any_eq_true _ _).1 hplaced
  have hcurrent := hexact w hreached (by decide +kernel) (by decide +kernel) (by decide +kernel)
    (by rfl) ⟨0, 1⟩ (.flag "f") 0 none (.head _) hcontext r (.flag stale) hr
    (of_decide_eq_true hmem) "f" ⟨.bool true, "b"⟩ (by decide +kernel)
  exact absurd hcurrent (by decide +kernel)

end World

end FlagFanout
