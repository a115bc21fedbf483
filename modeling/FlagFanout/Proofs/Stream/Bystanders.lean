import FlagFanout.Proofs.Stream.Ledger

/-!
# Slow readers and everybody else

Under `DeliveryPolicy.dropNewest` a full mailbox costs its own connection a message and nobody else
anything. What the others see of a stream (`Stream.view`) leaves out what waits in the mailbox of
one connection, and does not tell whether a message was sent or dropped.

`Stream.shown_act?` says that a view evolves by itself: what an act makes of it depends on nothing
that is left out. Reading the mailbox that is left out shows nothing at all. Two runs that differ
only in how that connection reads therefore show the same after every act: `Stream.undisturbed`.
-/

namespace FlagFanout

/-! ## Sent or dropped -/

/-- The tally without telling sent messages and dropped ones apart. -/
def Tally.merged (t : Tally) : Tally := ⟨t.sent + t.dropped, 0, t.disconnected⟩

theorem Tally.merged_add (s t : Tally) : (s + t).merged = s.merged + t.merged :=
  congrArg (Tally.mk · 0 _) (Nat.add_add_add_comm ..)

/-- The figures without telling sent messages and dropped ones apart. -/
def Counters.merged (c : Counters) : Counters := { c with sent := c.sent + c.dropped, dropped := 0 }

theorem Counters.merged_deliver (c : Counters) (t : Tally) :
    (c.deliver t).merged = c.merged.deliver t.merged :=
  congrArg (Counters.mk _ _ · 0) (Nat.add_add_add_comm ..)

/-- The pass without telling sent messages and dropped ones apart. -/
def Pass.merged (p : Pass) : Pass := { p with total := p.total.merged }

/-- The push without telling sent messages and dropped ones apart. -/
def Push.merged (p : Push) : Push := { p with tally := p.tally.merged }

/-- The phase without telling sent messages and dropped ones apart. -/
def Phase.merged : Phase → Phase
  | .idle => .idle
  | .visiting pass => .visiting pass.merged
  | .pushing pass push => .pushing pass.merged push.merged
  | .stalled pass push => .stalled pass.merged push.merged
  | .stopped => .stopped

@[simp] theorem Phase.merged_merged (p : Phase) : p.merged.merged = p.merged := by
  cases p <;> rfl

namespace Worker

/-- The worker without telling sent messages and dropped ones apart. -/
def merged (w : Worker) : Worker := ⟨w.index, w.counters.merged, w.phase.merged⟩

@[simp] theorem merged_merged (w : Worker) : w.merged.merged = w.merged :=
  congrArg (Worker.mk _ _) w.phase.merged_merged

theorem merged_count (w : Worker) (t : Tally) : (w.count t).merged = w.merged.count t.merged :=
  congrArg (Worker.mk _ · _) (Counters.merged_deliver ..)

theorem merged_join (w : Worker) (selector : Selector) (discriminator : UInt64) (c : Channel)
    (id : ConnectionId) :
    (w.join selector discriminator c id).merged = w.merged.join selector discriminator c id := rfl

theorem merged_refuse (w : Worker) (index : ChannelIndex) (place : Place) :
    ({ w with index }.collect place).merged = { w.merged with index }.collect place := rfl

theorem merged_pruneAll (w : Worker) (pruned : List (Place × Nat)) :
    (w.pruneAll pruned).1.merged = (w.merged.pruneAll pruned).1 := by
  induction pruned generalizing w with
  | nil => rfl
  | cons entry rest ih =>
    obtain ⟨place, n⟩ := entry
    have hprune : (w.prune place n).1.merged = (w.merged.prune place n).1 := by
      rw [prune_fst, prune_fst]
      rfl
    exact (ih (w.prune place n).1).trans (by rw [hprune]; rfl)

theorem merged_endPass (w : Worker) (pass : Pass) :
    (w.endPass pass).1.merged = (w.merged.endPass pass.merged).1 := by
  unfold endPass
  rw [merged_pruneAll, merged_count]
  rfl

theorem merged_visit (w : Worker) (ev : Evaluator) (pass : Pass) (place : Place) :
    (w.visit ev pass place).merged = w.merged.visit ev pass.merged place := by
  have hindex : w.merged.index = w.index := rfl
  unfold visit
  rw [hindex]
  cases w.index.find? place.1 place.2 with
  | none => rfl
  | some c =>
    cases hrefresh : c.last.refresh ev c.context with | mk last found
    cases found <;> simp only [hrefresh] <;> rfl

theorem merged_passAfter (pass : Pass) (push : Push) :
    (passAfter pass push).merged = passAfter pass.merged push.merged :=
  congrArg (Pass.mk _ · _) (Tally.merged_add ..)

theorem merged_endPush (w : Worker) (pass : Pass) (push : Push) :
    (w.endPush pass push).1.merged = (w.merged.endPush pass.merged push.merged).1 :=
  congrArg (fun pass => Worker.mk _ _ (.visiting pass)) (merged_passAfter pass push)

end Worker

/-- Whether a message is placed by an effect in a mailbox other than that of one connection. -/
def Effect.isElsewhere (n : Nat) : Effect → Bool
  | .placed id _ => id.number ≠ n
  | .skipped _ _ => false
  | .metric _ => false

/-- Whether a message is placed by an event in a mailbox other than that of one connection. -/
def Event.isElsewhere (n : Nat) : Event → Bool
  | .effect f => f.isElsewhere n
  | _ => false

section Elsewhere

variable (n : Nat)

theorem filter_isElsewhere_effects (effects : List Effect) :
    (effects.map Event.effect).filter (Event.isElsewhere n) =
      (effects.filter (Effect.isElsewhere n)).map .effect :=
  List.filter_map

/-- What the others are sent is told by what is placed elsewhere. -/
theorem placed_filter_isElsewhere {id : ConnectionId} (h : id.number ≠ n) (log : List Event) :
    placed id (log.filter (Event.isElsewhere n)) = placed id log := by
  unfold placed
  rw [List.filterMap_filter]
  refine List.filterMap_congr fun event _ => ?_
  cases event with
  | effect f =>
    cases f with
    | placed id' m =>
      by_cases heq : id' = id
      · simp [Event.isElsewhere, Effect.isElsewhere, heq, h]
      · simp [heq]
    | skipped id' m => rfl
    | metric m => rfl
  | _ => rfl

end Elsewhere

/-! ## One mailbox left out -/

namespace Mailboxes

variable (b : Mailboxes) (n : Nat)

theorem ext_get? {b b' : Mailboxes} (h : ∀ k, b.get? k = b'.get? k) : b = b' :=
  congrArg Mailboxes.mk (List.ext_getElem? h)

/-- The mailboxes with nothing in one of them. -/
def emptied : Mailboxes := b.modify n fun box => { box with messages := [] }

theorem get?_emptied_of_ne {k : Nat} (h : k ≠ n) : (b.emptied n).get? k = b.get? k := by
  rw [emptied, get?_modify, if_neg h]

theorem get?_emptied_self :
    (b.emptied n).get? n = (b.get? n).map fun box => { box with messages := [] } := by
  rw [emptied, get?_modify, if_pos rfl]

@[simp] theorem next_emptied : (b.emptied n).next = b.next := next_modify ..

theorem attempt_emptied_of_ne {k : Nat} (h : k ≠ n) (policy : DeliveryPolicy) :
    (b.emptied n).attempt policy k = b.attempt policy k := by
  rw [attempt, get?_emptied_of_ne b n h, attempt]

/-- What is done to a mailbox is seen no matter what waits in the one that is left out, unless it is
that one and its messages play a part. -/
theorem emptied_modify {k : Nat} {f : Mailbox → Mailbox}
    (h : k = n → ∀ box, { f { box with messages := [] } with messages := [] } =
      { f box with messages := [] }) :
    (b.modify k f).emptied n = ((b.emptied n).modify k f).emptied n := by
  refine ext_get? fun i => ?_
  by_cases hi : i = n
  · subst hi
    rw [get?_emptied_self, get?_emptied_self, get?_modify, get?_modify, get?_emptied_self]
    by_cases hk : i = k
    · rw [if_pos hk, if_pos hk, Option.map_map, Option.map_map, Option.map_map]
      exact congrArg (Option.map · _) (funext fun box => (h hk.symm box).symm)
    · rw [if_neg hk, if_neg hk, Option.map_map]
      rfl
  · rw [get?_emptied_of_ne _ n hi, get?_emptied_of_ne _ n hi, get?_modify, get?_modify,
      get?_emptied_of_ne b n hi]

/-- What only changes the messages of a mailbox is not seen once it is emptied. -/
theorem emptied_modify_self {f : Mailbox → Mailbox}
    (h : ∀ box, { f box with messages := [] } = { box with messages := [] }) :
    (b.modify n f).emptied n = b.emptied n := by
  refine ext_get? fun i => ?_
  by_cases hi : i = n
  · subst hi
    rw [get?_emptied_self, get?_emptied_self, get?_modify, if_pos rfl, Option.map_map]
    exact congrArg (Option.map · _) (funext h)
  · rw [get?_emptied_of_ne _ n hi, get?_emptied_of_ne b n hi, get?_modify, if_neg hi]

@[simp] theorem emptied_emptied : (b.emptied n).emptied n = b.emptied n :=
  emptied_modify_self b n fun _ => rfl

theorem emptied_offer (policy : DeliveryPolicy) (k : Nat) (m : Message) :
    (b.offer policy k m).emptied n = ((b.emptied n).offer policy k m).emptied n := by
  refine emptied_modify b n fun _ box => ?_
  unfold Mailbox.offer
  split <;> split <;> rfl

theorem emptied_add (capacity : Nat) :
    (b.add capacity).emptied n = ((b.emptied n).add capacity).emptied n := by
  refine ext_get? fun i => ?_
  by_cases hi : i = n
  · subst hi
    rw [get?_emptied_self, get?_emptied_self, get?_add, get?_add, next_emptied]
    by_cases hnew : i = b.next
    · rw [if_pos hnew, if_pos hnew]
    · rw [if_neg hnew, if_neg hnew, get?_emptied_self, Option.map_map]
      rfl
  · rw [get?_emptied_of_ne _ n hi, get?_emptied_of_ne _ n hi, get?_add, get?_add, next_emptied,
      get?_emptied_of_ne b n hi]

variable {b n}

/-- Where nobody waits, an offer is refused, or it is sent or dropped. -/
theorem attempt_dropNewest_cases (b : Mailboxes) (k : Nat) :
    b.attempt .dropNewest k = .disconnected ∨ b.attempt .dropNewest k ∈ [.sent, .dropped] := by
  cases hbox : b.get? k with
  | none => simp [attempt, hbox]
  | some box =>
    rw [attempt_of_get? hbox, Mailbox.attempt]
    cases box.listening <;> cases box.isFull <;> simp

variable (b n)

/-- What is refused does not depend on the messages that wait. -/
theorem attempt_emptied_eq_disconnected_iff {policy : DeliveryPolicy} {k : Nat} :
    (b.emptied n).attempt policy k = .disconnected ↔ b.attempt policy k = .disconnected := by
  by_cases hk : k = n
  · subst hk
    cases hbox : b.get? k with
    | none => rw [attempt, get?_emptied_self, attempt, hbox]; rfl
    | some box =>
      rw [attempt_of_get? hbox, attempt_of_get? (by rw [get?_emptied_self, hbox]; rfl),
        Mailbox.attempt_eq_disconnected_iff, Mailbox.attempt_eq_disconnected_iff]
  · rw [attempt_emptied_of_ne b n hk]

theorem attempt_emptied_of_heard {k : Nat} (h : b.attempt .dropNewest k ∈ [.sent, .dropped]) :
    (b.emptied n).attempt .dropNewest k ∈ [.sent, .dropped] := by
  refine ((b.emptied n).attempt_dropNewest_cases k).resolve_left fun hrefused => ?_
  rw [(b.attempt_emptied_eq_disconnected_iff n).1 hrefused] at h
  simp at h

/-- What an offer adds to a tally depends on no message that waits, up to whether it was dropped. -/
theorem tally_emptied (k : Nat) :
    ((b.emptied n).attempt .dropNewest k).tally.merged =
      (b.attempt .dropNewest k).tally.merged := by
  have hheard : ∀ out : Attempt, out ∈ [.sent, .dropped] → out.tally.merged = ⟨1, 0, 0⟩ := by
    intro out hout
    rcases List.mem_pair.1 hout with rfl | rfl <;> rfl
  rcases b.attempt_dropNewest_cases k with hout | hout
  · rw [hout, (b.attempt_emptied_eq_disconnected_iff n).2 hout]
  · rw [hheard _ hout, hheard _ (b.attempt_emptied_of_heard n hout)]

theorem attempt_dropNewest_ne_waiting (k : Nat) : b.attempt .dropNewest k ≠ .waiting := by
  intro h
  have hcases := b.attempt_dropNewest_cases k
  rw [h] at hcases
  simp at hcases

end Mailboxes

/-! ## What the others see -/

namespace Worker

variable {w : Worker} {b : Mailboxes} {n : Nat}

/-- What the others see of a step of the worker. -/
def Result.view (n : Nat) (r : Result) : Result :=
  ⟨r.worker.merged, r.mailboxes.emptied n, r.effects.filter (Effect.isElsewhere n)⟩

theorem Result.view_congr {r r' : Result} (hworker : r.worker.merged = r'.worker.merged)
    (hmailboxes : r.mailboxes.emptied n = r'.mailboxes.emptied n)
    (heffects : r.effects.filter (Effect.isElsewhere n) =
      r'.effects.filter (Effect.isElsewhere n)) : r.view n = r'.view n := by
  rw [Result.view, Result.view, hworker, hmailboxes, heffects]

theorem filter_report (selector : Selector) (t : Tally) :
    (report selector t).filter (Effect.isElsewhere n) = [] := by
  unfold report
  split <;> split <;> rfl

theorem filter_closings (pruned : List (Place × Nat)) :
    (closings pruned).filter (Effect.isElsewhere n) = [] := by
  refine List.filter_eq_nil_iff.2 fun f hf => ?_
  obtain ⟨entry, -, hentry⟩ := List.mem_flatMap.1 hf
  rw [List.eq_of_mem_replicate hentry]
  exact Bool.false_ne_true

theorem filter_trace_self {id : ConnectionId} (h : id.number = n) (m : Message) (out : Attempt) :
    (out.trace id m).filter (Effect.isElsewhere n) = [] := by
  cases out <;> simp [Attempt.trace, Effect.isElsewhere, h]

theorem merged_close (id : ConnectionId) (selector : Selector) (discriminator : UInt64) :
    (w.merged.close id selector discriminator) =
      ((w.close id selector discriminator).1.merged, (w.close id selector discriminator).2) := by
  have hindex : w.merged.index = w.index := rfl
  unfold close
  rw [hindex]
  cases w.index.find? selector discriminator with
  | none => rfl
  | some c =>
    by_cases hmember : id ∈ c.members
    · simp only [if_pos hmember]
      rfl
    · simp only [if_neg hmember]

theorem filter_trace_emptied (policy : DeliveryPolicy) (id : ConnectionId) (m : Message) :
    (((b.emptied n).attempt policy id.number).trace id m).filter (Effect.isElsewhere n) =
      ((b.attempt policy id.number).trace id m).filter (Effect.isElsewhere n) := by
  by_cases hid : id.number = n
  · rw [filter_trace_self hid, filter_trace_self hid]
  · rw [b.attempt_emptied_of_ne n hid]

/-! ### Commands -/

section Commands

variable (ev : Evaluator) (id : ConnectionId) (selector : Selector) (discriminator : UInt64)
  (context : Option Context)

variable {id} in
/-- A newcomer whose receiver is gone leaves no trace. -/
theorem establish_of_refused {policy : DeliveryPolicy}
    (h : b.attempt policy id.number = .disconnected) :
    let c := w.channelFor ev selector discriminator context
    w.establish policy ev b id selector discriminator context =
      some ⟨{ w with index := w.index.put selector discriminator c }.collect
        (selector, discriminator), b, []⟩ := by
  intro c
  have hmailboxes : b.offer policy id.number c.last.message = b :=
    Mailboxes.offer_of_ne_sent (by simp [h]) c.last.message
  unfold establish
  rw [h]
  exact congrArg (fun b => some (Result.mk _ b [])) hmailboxes

variable {id} in
/-- A newcomer joins whether it was sent its greeting or not. -/
theorem establish_of_heard {policy : DeliveryPolicy}
    (h : b.attempt policy id.number ∈ [.sent, .dropped]) :
    let c := w.channelFor ev selector discriminator context
    let out := b.attempt policy id.number
    w.establish policy ev b id selector discriminator context =
      some ⟨(w.count out.tally).join selector discriminator c id,
        b.offer policy id.number c.last.message,
        out.trace id c.last.message ++ report selector out.tally ++
          [.metric (.opened selector)]⟩ := by
  intro c out
  have hout : b.attempt policy id.number = out := rfl
  unfold establish
  rw [hout] at h ⊢
  rcases List.mem_pair.1 h with heq | heq <;> rw [heq] <;> rfl

theorem view_establish :
    (w.establish .dropNewest ev b id selector discriminator context).map (Result.view n) =
      (w.merged.establish .dropNewest ev (b.emptied n) id selector discriminator context).map
        (Result.view n) := by
  rcases b.attempt_dropNewest_cases id.number with hrefused | hheard
  · have hrefused' := (b.attempt_emptied_eq_disconnected_iff n).2 hrefused
    rw [establish_of_refused ev selector discriminator context hrefused,
      establish_of_refused ev selector discriminator context hrefused']
    refine congrArg some (Result.view_congr ?_ (b.emptied_emptied n).symm rfl)
    rw [merged_refuse, merged_refuse, merged_merged]
    rfl
  · have hheard' := b.attempt_emptied_of_heard n hheard
    rw [establish_of_heard ev selector discriminator context hheard,
      establish_of_heard ev selector discriminator context hheard']
    refine congrArg some (Result.view_congr ?_ (b.emptied_offer n ..) ?_)
    · rw [merged_join, merged_join, merged_count, merged_count, merged_merged,
        b.tally_emptied n]
      rfl
    · rw [List.filter_append, List.filter_append, List.filter_append, List.filter_append,
        filter_report, filter_report, filter_trace_emptied]
      rfl

theorem view_handle (command : Command) :
    (w.handle .dropNewest ev b command).map (Result.view n) =
      (w.merged.handle .dropNewest ev (b.emptied n) command).map (Result.view n) := by
  cases command with
  | established id selector discriminator context =>
    exact view_establish ev id selector discriminator context
  | closed id selector discriminator =>
    simp only [handle, merged_close, Option.map_some, Result.view, merged_merged,
      Mailboxes.emptied_emptied]

end Commands

/-! ### Passes -/

section Passes

variable (pass : Pass) (push : Push)

/-- The next member stays unless it is gone, whether it was sent the message or not. -/
theorem deliver_eq {policy : DeliveryPolicy} {id : ConnectionId} (rest : List ConnectionId)
    (h : b.attempt policy id.number ≠ .waiting) :
    let out := b.attempt policy id.number
    w.deliver policy b pass push id rest =
      ⟨{ w with
          phase := .pushing pass
            { push with
              served := if out = .disconnected then push.served else push.served ++ [id]
              waiting := rest
              tally := push.tally + out.tally } },
        b.offer policy id.number push.message, out.trace id push.message⟩ := by
  intro out
  have hout : b.attempt policy id.number = out := rfl
  unfold deliver
  rw [hout] at h ⊢
  cases hcases : out with
  | waiting => exact absurd hcases h
  | sent => rfl
  | dropped => rfl
  | disconnected => rfl

theorem merged_serve (served waiting : List ConnectionId) (t : Tally) :
    { w with
      phase := .pushing pass { push with served, waiting, tally := push.tally + t } }.merged =
    { w.merged with
      phase := .pushing pass.merged
        { push with served, waiting, tally := push.tally.merged + t.merged } } :=
  congrArg (fun t => Worker.mk _ _ (.pushing _ (.mk _ _ _ _ t))) (Tally.merged_add ..)

theorem view_deliver (id : ConnectionId) (rest : List ConnectionId) :
    (w.deliver .dropNewest b pass push id rest).view n =
      (w.merged.deliver .dropNewest (b.emptied n) pass.merged push.merged id rest).view n := by
  rw [deliver_eq pass push rest (b.attempt_dropNewest_ne_waiting _),
    deliver_eq pass.merged push.merged rest ((b.emptied n).attempt_dropNewest_ne_waiting _)]
  refine Result.view_congr ?_ (b.emptied_offer n ..) (filter_trace_emptied ..).symm
  rw [merged_serve, merged_serve, merged_merged, b.tally_emptied n,
    if_congr (b.attempt_emptied_eq_disconnected_iff n) rfl rfl]
  rfl

theorem canResume_dropNewest : canResume .dropNewest b push = true := by
  unfold canResume
  cases push.waiting.head? with
  | none => rfl
  | some id => exact decide_eq_true (b.attempt_dropNewest_ne_waiting id.number)

theorem view_endPass :
    Result.view n ⟨(w.endPass pass).1, b, (w.endPass pass).2⟩ =
      Result.view n ⟨(w.merged.endPass pass.merged).1, b.emptied n,
        (w.merged.endPass pass.merged).2⟩ := by
  refine Result.view_congr ?_ (b.emptied_emptied n).symm ?_
  · rw [merged_endPass, merged_endPass, merged_merged]
    rfl
  · rw [endPass_snd, endPass_snd, filter_closings, filter_closings]

theorem view_endPush :
    Result.view n ⟨(w.endPush pass push).1, b, (w.endPush pass push).2⟩ =
      Result.view n ⟨(w.merged.endPush pass.merged push.merged).1, b.emptied n,
        (w.merged.endPush pass.merged push.merged).2⟩ := by
  refine Result.view_congr ?_ (b.emptied_emptied n).symm ?_
  · rw [merged_endPush, merged_endPush, merged_merged]
    rfl
  · rw [endPush_snd, endPush_snd, filter_report, filter_report]

/-- What is seen of a step of a pass depends on what is seen of the worker. -/
theorem view_passStep? (ev : Evaluator) :
    (w.passStep? .dropNewest ev b).map (Result.view n) =
      (w.merged.passStep? .dropNewest ev (b.emptied n)).map (Result.view n) := by
  have hmailboxes := (b.emptied_emptied n).symm
  cases hphase : w.phase with
  | idle => simp only [passStep?, merged, hphase, Phase.merged]
  | stopped => simp only [passStep?, merged, hphase, Phase.merged]
  | stalled pass push =>
    simp only [passStep?, merged, hphase, Phase.merged, canResume_dropNewest, if_true]
    exact congrArg some (Result.view_congr rfl hmailboxes rfl)
  | visiting pass =>
    have hphase' : w.merged.phase = .visiting pass.merged := by rw [merged, hphase]; rfl
    have htodo' : pass.merged.todo = pass.todo := rfl
    simp only [passStep?, hphase, hphase', htodo']
    cases htodo : pass.todo with
    | nil => exact congrArg some (view_endPass pass)
    | cons place rest =>
      refine congrArg some (Result.view_congr ?_ hmailboxes rfl)
      rw [merged_visit, merged_visit, merged_merged]
      rfl
  | pushing pass push =>
    have hphase' : w.merged.phase = .pushing pass.merged push.merged := by rw [merged, hphase]; rfl
    have hwaiting' : push.merged.waiting = push.waiting := rfl
    simp only [passStep?, hphase, hphase', hwaiting']
    cases hwaiting : push.waiting with
    | nil => exact congrArg some (view_endPush pass push)
    | cons id rest => exact congrArg some (view_deliver pass push id rest)

end Passes

end Worker

namespace Stream

variable (n : Nat) (s : Stream)

/-- What the others see of a stream: everything but what waits in the mailbox of one connection,
with sent messages and dropped ones not told apart. -/
def view : Stream := { s with mailboxes := s.mailboxes.emptied n, worker := s.worker.merged }

@[simp] theorem view_view : (s.view n).view n = s.view n := by
  unfold view
  rw [Worker.merged_merged, Mailboxes.emptied_emptied]

variable {n s} in
/-- Where the worker does nothing, mailboxes of which the same is seen make no difference. -/
theorem view_withMailboxes {boxes boxes' : Mailboxes} (closed : Bool) (queue : List Command)
    (h : boxes.emptied n = boxes'.emptied n) :
    { s with closed, queue, mailboxes := boxes }.view n =
      { s.view n with closed, queue, mailboxes := boxes' }.view n := by
  have hworker : (s.view n).worker.merged = s.worker.merged := s.worker.merged_merged
  rw [view, view, hworker, h]
  rfl

/-- What the others see of a step of the worker. -/
def Step.view (next : Step) : Step :=
  ⟨next.engine, next.stream.view n, next.effects.filter (Effect.isElsewhere n)⟩

theorem attentive_view : (s.view n).attentive = s.attentive := by
  have hphase : (s.view n).worker.phase = s.worker.phase.merged := rfl
  unfold attentive
  rw [hphase]
  cases s.worker.phase <;> rfl

/-- Two steps of which the same is seen leave streams of which the same is seen. -/
theorem view_withResult (e : Engine) (queue : List Command) {found found' : Option Worker.Result}
    (h : found.map (Worker.Result.view n) = found'.map (Worker.Result.view n)) :
    (found.map fun r => ⟨e, { s.withResult r with queue }, r.effects⟩).map (Step.view n) =
      (found'.map fun r => ⟨e, { (s.view n).withResult r with queue }, r.effects⟩).map
        (Step.view n) := by
  cases found with
  | none =>
    cases found' with
    | none => rfl
    | some r' => cases h
  | some r =>
    cases found' with
    | none => cases h
    | some r' =>
      exact congrArg (fun r => some (Step.mk e { s.withResult r with queue } r.effects))
        (Option.some_inj.1 h)

/-- What is seen of the beginning of a pass. -/
theorem view_beginPass? (e : Engine) (places : List Place) :
    (beginPass? e s places).map (Step.view n) =
      (beginPass? e (s.view n) places).map (Step.view n) := by
  have hreceiver : (s.view n).receiver = s.receiver := rfl
  unfold beginPass?
  rw [hreceiver]
  cases e.poll s.receiver with | mk found e' =>
  cases found with
  | signal =>
    exact congrArg (fun boxes => some (Step.mk e' { s with
      mailboxes := boxes
      worker := s.worker.merged.beginPass places } [])) (s.mailboxes.emptied_emptied n).symm
  | empty => rfl
  | ended => rfl

theorem view_begin? (e : Engine) (places : List Place) :
    (begin? e s places).map (Step.view n) = (begin? e (s.view n) places).map (Step.view n) := by
  have hclosed : (s.view n).closed = s.closed := rfl
  have hphase : (s.view n).worker.phase = s.worker.phase.merged := rfl
  have hqueue : (s.view n).queue = s.queue := rfl
  have hindex : (s.view n).worker.index = s.worker.index := rfl
  unfold begin?
  rw [hclosed, hphase, hqueue, hindex]
  cases s.closed with
  | true => rfl
  | false =>
    cases s.worker.phase with
    | idle =>
      cases s.queue with
      | nil =>
        by_cases hplaces : places.Perm s.worker.index.places
        · simp only [Phase.merged, if_pos hplaces]
          exact s.view_beginPass? n e places
        · simp only [Phase.merged, if_neg hplaces, Option.map_none]
      | cons command rest => rfl
    | visiting pass | pushing pass push | stalled pass push | stopped => rfl

section Steps

variable {s} (hpolicy : s.config.delivery = .dropNewest) (e : Engine)

include hpolicy

theorem view_nextPassStep? :
    (nextPassStep? e s).map (Step.view n) = (nextPassStep? e (s.view n)).map (Step.view n) := by
  have hpolicy' : (s.view n).config.delivery = .dropNewest := hpolicy
  unfold nextPassStep?
  rw [hpolicy, hpolicy']
  exact s.view_withResult n e s.queue (Worker.view_passStep? e.evaluator)

theorem view_nextJob? :
    (nextJob? e s).map (Step.view n) = (nextJob? e (s.view n)).map (Step.view n) := by
  have hpolicy' : (s.view n).config.delivery = .dropNewest := hpolicy
  have hqueue' : (s.view n).queue = s.queue := rfl
  unfold nextJob?
  rw [hqueue', hpolicy, hpolicy']
  cases s.queue with
  | nil => exact s.view_beginPass? n e s.worker.index.places
  | cons command rest => exact s.view_withResult n e rest (Worker.view_handle e.evaluator command)

/-- What is seen of a step of the worker depends on what is seen of the stream. -/
theorem view_step? : (step? e s).map (Step.view n) = (step? e (s.view n)).map (Step.view n) := by
  have hclosed : (s.view n).closed = s.closed := rfl
  have hphase : (s.view n).worker.phase = s.worker.phase.merged := rfl
  have hpass := view_nextPassStep? n hpolicy e
  unfold step?
  rw [hclosed, attentive_view, hphase]
  cases s.closed && s.attentive with
  | true =>
    exact congrArg (fun boxes => some (Step.mk e { s.stop with
      mailboxes := boxes
      worker := s.worker.merged.stop } [])) (s.mailboxes.emptied_emptied n).symm
  | false =>
    cases s.worker.phase with
    | idle => exact view_nextJob? n hpolicy e
    | stopped => rfl
    | visiting pass => exact hpass
    | pushing pass push => exact hpass
    | stalled pass push => exact hpass

end Steps

/-! ## What is seen of a run -/

/-- Whether an act is a look of one connection into its mailbox. -/
def Act.takes (n : Nat) : Act → Bool
  | .take number => number = n
  | _ => false

/-- What the others see of a stream and of what happened: what was placed in their mailboxes. -/
def shown (r : Stream × List Event) : Stream × List Event :=
  (r.1.view n, r.2.filter (Event.isElsewhere n))

variable {n s}

/-! ### Looks into mailboxes -/

theorem shown_take? (number : Nat) :
    (s.act? (.take number)).map (shown n) =
      some ((s.receive ⟨s.serial, number⟩).2.view n, []) := by
  simp only [act?]
  cases s.receive ⟨s.serial, number⟩ with | mk receipt s' =>
  cases receipt <;> rfl

theorem view_receive_self (stream : Nat) : (s.receive ⟨stream, n⟩).2.view n = s.view n := by
  rcases s.receive_cases ⟨stream, n⟩ with
    ⟨box, m, rest, -, -, hreceive⟩ | hreceive | hreceive
  · have hmailboxes := s.mailboxes.emptied_modify_self n
      (f := fun b => { b with messages := rest }) fun _ => rfl
    rw [hreceive, view, hmailboxes]
    rfl
  · rw [hreceive]
  · rw [hreceive]

theorem view_receive_of_ne (id : ConnectionId) (h : id.number ≠ n) :
    (s.receive id).2.view n = ((s.view n).receive id).2.view n := by
  have hbox : (s.view n).mailboxes.get? id.number = s.mailboxes.get? id.number :=
    s.mailboxes.get?_emptied_of_ne n h
  unfold receive
  rw [hbox]
  cases s.mailboxes.get? id.number with
  | none => exact (s.view_view n).symm
  | some box =>
    obtain ⟨capacity, messages, listening⟩ := box
    cases messages with
    | nil => exact (s.view_view n).symm
    | cons m rest =>
      exact view_withMailboxes s.closed s.queue
        (s.mailboxes.emptied_modify n fun heq => absurd heq h)

/-- What the connection reads is not seen. -/
theorem shown_act?_of_takes {a : Act} (h : a.takes n = true) :
    (s.act? a).map (shown n) = some (s.view n, []) := by
  cases a with
  | take number =>
    obtain rfl : number = n := of_decide_eq_true h
    rw [shown_take?, view_receive_self]
  | connect | disconnect | leave | close | work | begin => cases h

/-! ### All other acts -/

theorem filter_remark (e : Engine) (next : Step) :
    (s.remark e next).filter (Event.isElsewhere n) = [] := by
  unfold remark
  split
  · rfl
  · cases s.worker.phase with
    | idle =>
      cases s.queue with
      | nil => rfl
      | cons command rest =>
        cases command with
        | closed id selector discriminator => rfl
        | established id selector discriminator context =>
          dsimp only
          split <;> rfl
    | visiting pass => cases next.stream.worker.phase <;> rfl
    | pushing pass push =>
      dsimp only
      split
      · next id _ _ _ _ _ => cases s.mailboxes.get? id.number <;> rfl
      · rfl
    | stalled pass push => rfl
    | stopped => rfl

theorem shown_observe (e : Engine) (next : Step) :
    shown n (next.stream, s.observe e next) =
      ((next.view n).stream, (next.view n).effects.map .effect) := by
  unfold shown observe
  rw [List.filter_append, filter_remark, filter_isElsewhere_effects]
  rfl

/-- What is seen of an act is what is seen of the step that the worker takes in it. -/
theorem shown_step {step step' : Option Step}
    (h : step.map (Step.view n) = step'.map (Step.view n)) (e : Engine) (t : Stream) :
    (step.map fun next => (next.stream, s.observe e next)).map (shown n) =
      (step'.map fun next => (next.stream, t.observe e next)).map (shown n) := by
  have hshown (t : Stream) (step : Option Step) :
      (step.map fun next => (next.stream, t.observe e next)).map (shown n) =
        (step.map (Step.view n)).map fun next => (next.stream, next.effects.map .effect) := by
    rw [Option.map_map, Option.map_map]
    exact congrArg (Option.map · _) (funext fun next => shown_observe e next)
  rw [hshown, hshown, h]

theorem shown_connect? (selector : Selector) (context : Option Context) :
    (s.act? (.connect selector context)).map (shown n) =
      ((s.view n).act? (.connect selector context)).map (shown n) := by
  have hconnection : (s.view n).nextConnection selector context =
      s.nextConnection selector context :=
    congrArg (fun next => Connection.mk ⟨s.serial, next⟩ selector _) (s.mailboxes.next_emptied n)
  have hclosed : (s.view n).closed = s.closed := rfl
  have hfull : (s.view n).queueFull = s.queueFull := rfl
  have hview (closed : Bool) (queue : List Command) :=
    view_withMailboxes (s := s) closed queue (s.mailboxes.emptied_add n s.config.mailboxCapacity)
  simp only [act?, connect?, hconnection, hclosed, hfull]
  cases s.closed with
  | true => exact congrArg (fun s => some (s, [])) (hview true s.queue)
  | false =>
    cases s.queueFull with
    | true => rfl
    | false => exact congrArg (fun s => some (s, [])) (hview false _)

theorem shown_disconnect? (c : Connection) :
    (s.act? (.disconnect c)).map (shown n) = ((s.view n).act? (.disconnect c)).map (shown n) := by
  have hclosed : (s.view n).closed = s.closed := rfl
  have hfull : (s.view n).queueFull = s.queueFull := rfl
  have hview (closed : Bool) (queue : List Command) :=
    view_withMailboxes (s := s) closed queue (s.mailboxes.emptied_emptied n).symm
  simp only [act?, disconnect?, hclosed, hfull]
  cases s.closed with
  | true => exact congrArg (fun s => some (s, [])) (s.view_view n).symm
  | false =>
    cases s.queueFull with
    | true => rfl
    | false => exact congrArg (fun s => some (s, [])) (hview false _)

theorem view_dropReceiver (id : ConnectionId) :
    (s.dropReceiver id).view n = ((s.view n).dropReceiver id).view n :=
  view_withMailboxes s.closed s.queue (s.mailboxes.emptied_modify n fun _ _ => rfl)

theorem view_close (e : Engine) : (s.close e).1.view n = ((s.view n).close e).1.view n := by
  have hclosed : (s.view n).closed = s.closed := rfl
  unfold close
  rw [hclosed]
  cases s.closed with
  | true => exact (s.view_view n).symm
  | false => exact view_withMailboxes true s.queue (s.mailboxes.emptied_emptied n).symm

/-- **What the others see evolves by itself**: it depends on nothing that they do not see. -/
theorem shown_act? (hpolicy : s.config.delivery = .dropNewest) {a : Act} (h : a.takes n = false) :
    (s.act? a).map (shown n) = ((s.view n).act? a).map (shown n) := by
  cases a with
  | connect selector context => exact shown_connect? selector context
  | disconnect c => exact shown_disconnect? c
  | take number =>
    have hnumber : number ≠ n := of_decide_eq_false h
    rw [shown_take?, shown_take?, view_receive_of_ne ⟨s.serial, number⟩ hnumber]
    rfl
  | leave number => exact congrArg (fun s => some (s, [])) (view_dropReceiver ⟨s.serial, number⟩)
  | close e => exact congrArg (fun s => some (s, [])) (view_close e)
  | work e => exact shown_step (view_step? n hpolicy e) e (s.view n)
  | begin e places => exact shown_step (s.view_begin? n e places) e (s.view n)

/-! ### Several acts -/

/-- Two streams of which the same is seen, and which never wait for room. -/
structure LooksLike (n : Nat) (s t : Stream) : Prop where
  dropNewest : s.config.delivery = .dropNewest
  view_eq : t.view n = s.view n

namespace LooksLike

variable {t : Stream}

theorem symm (h : LooksLike n s t) : LooksLike n t s where
  dropNewest := by
    have hconfig : (t.view n).config = (s.view n).config := congrArg Stream.config h.view_eq
    exact (congrArg StreamConfig.delivery hconfig).trans h.dropNewest
  view_eq := h.view_eq.symm

theorem shown_act? (h : LooksLike n s t) {a : Act} (ha : a.takes n = false) :
    (t.act? a).map (shown n) = (s.act? a).map (shown n) := by
  rw [Stream.shown_act? h.symm.dropNewest ha, h.view_eq, ← Stream.shown_act? h.dropNewest ha]

/-- The same is seen after acts of which the same is seen. -/
theorem of_act? (h : LooksLike n s t) {a : Act} {r r' : Stream × List Event}
    (hact : s.act? a = some r) (hshown : shown n r = shown n r') : LooksLike n r.1 r'.1 where
  dropNewest := by
    rw [(move_of_act? hact).config_eq]
    exact h.dropNewest
  view_eq := (congrArg Prod.fst hshown).symm

end LooksLike

/-- What is seen of an act comes before what is seen of those that follow. -/
theorem shown_acts?_cons {a : Act} {r : Stream × List Event} (hact : s.act? a = some r)
    (rest : List Act) :
    (s.acts? (a :: rest)).map (shown n) =
      ((r.1.acts? rest).map (shown n)).map fun last => (last.1, (shown n r).2 ++ last.2) := by
  rw [acts?, hact, Option.bind_some, Option.map_map, Option.map_map]
  refine congrArg (Option.map · _) (funext fun last => ?_)
  exact congrArg (Prod.mk _) (List.filter_append ..)

/-- **What the others see of several acts does not tell how the connection reads**: without its
looks into its mailbox the same is seen. -/
theorem shown_acts? {t : Stream} (h : LooksLike n s t) (acts : List Act) :
    (s.acts? acts).map (shown n) = (t.acts? (acts.filter (!·.takes n))).map (shown n) := by
  induction acts generalizing s t with
  | nil => exact congrArg (fun s => some (s, [])) h.view_eq.symm
  | cons a rest ih =>
    cases htakes : a.takes n with
    | true =>
      -- the other stream waits while the connection looks into its mailbox
      obtain ⟨r, hact, hr⟩ := Option.map_eq_some_iff.1 (shown_act?_of_takes (s := s) htakes)
      have hself : LooksLike n r.1 r.1 := h.of_act? hact rfl
      have hlike : LooksLike n r.1 t :=
        ⟨hself.dropNewest, h.view_eq.trans (congrArg Prod.fst hr).symm⟩
      rw [shown_acts?_cons hact, hr, ih hlike, List.filter_cons_of_neg (by simp [htakes])]
      exact Option.map_id'
    | false =>
      rw [List.filter_cons_of_pos (by simp [htakes])]
      have hshown := h.shown_act? htakes
      cases hact : s.act? a with
      | none =>
        rw [hact, Option.map_none, Option.map_eq_none_iff] at hshown
        rw [acts?, acts?, hact, hshown]
        rfl
      | some r =>
        rw [hact] at hshown
        obtain ⟨r', hact', hr⟩ := Option.map_eq_some_iff.1 hshown
        rw [shown_acts?_cons hact, shown_acts?_cons hact', ← hr, ih (h.of_act? hact hr.symm)]

theorem config_eq_of_acts? (s : Stream) {acts : List Act} {last : Stream × List Event}
    (hacts : s.acts? acts = some last) : last.1.config = s.config := by
  induction acts generalizing s last with
  | nil =>
    cases hacts
    rfl
  | cons a rest ih =>
    obtain ⟨r, hact, hrest⟩ := Option.bind_eq_some_iff.1 hacts
    obtain ⟨final, hfinal, rfl⟩ := Option.map_eq_some_iff.1 hrest
    exact (ih r.1 hfinal).trans (move_of_act? hact).config_eq

end Stream

/-! ## Slow readers -/

/-- What a connection's reading leaves alone: two streams, each with what happened, that differ at
most in what waits in the mailbox of the connection with a number and in how many messages met it
full. -/
structure Undisturbed (n : Nat) (last last' : Stream × List Event) : Prop where
  /-- The channels with their members, their contexts and what they last delivered. -/
  index_eq : last'.1.worker.index = last.1.worker.index
  openConnections_eq : last'.1.worker.counters.openConnections =
    last.1.worker.counters.openConnections
  channels_eq : last'.1.worker.counters.channels = last.1.worker.counters.channels
  /-- What was sent and what was dropped is the same together. -/
  delivered_eq : last'.1.worker.counters.sent + last'.1.worker.counters.dropped =
    last.1.worker.counters.sent + last.1.worker.counters.dropped
  /-- Every other mailbox got the same messages in the same order. -/
  placed_eq : ∀ id : ConnectionId, id.number ≠ n → placed id last'.2 = placed id last.2
  /-- Every other mailbox holds the same messages. -/
  mailbox_eq : ∀ k, k ≠ n → last'.1.mailboxes.get? k = last.1.mailboxes.get? k
  queue_eq : last'.1.queue = last.1.queue
  closed_eq : last'.1.closed = last.1.closed
  /-- Whatever the engine is then, the worker can take a step in both or in neither, and leaves the
  engine the same. -/
  engine_eq : ∀ e, (Stream.step? e last'.1).map (·.engine) = (Stream.step? e last.1).map (·.engine)

theorem Undisturbed.of_shown {n : Nat} {last last' : Stream × List Event}
    (hpolicy : last.1.config.delivery = .dropNewest)
    (h : Stream.shown n last' = Stream.shown n last) : Undisturbed n last last' := by
  have hview : last'.1.view n = last.1.view n := congrArg Prod.fst h
  have hstream {β : Type} (f : Stream → β) : f (last'.1.view n) = f (last.1.view n) :=
    congrArg f hview
  exact
    { index_eq := hstream fun s => s.worker.index
      openConnections_eq := hstream fun s => s.worker.counters.openConnections
      channels_eq := hstream fun s => s.worker.counters.channels
      delivered_eq := hstream fun s => s.worker.counters.sent
      placed_eq := fun id hid => by
        rw [← placed_filter_isElsewhere n hid, ← placed_filter_isElsewhere n hid last.2]
        exact congrArg (placed id) (congrArg Prod.snd h)
      mailbox_eq := fun k hk => by
        rw [← last'.1.mailboxes.get?_emptied_of_ne n hk, ← last.1.mailboxes.get?_emptied_of_ne n hk]
        exact hstream fun s => s.mailboxes.get? k
      queue_eq := hstream Stream.queue
      closed_eq := hstream Stream.closed
      engine_eq := fun e => by
        have hlike : Stream.LooksLike n last.1 last'.1 := ⟨hpolicy, hview⟩
        have hengine : ∀ t : Stream, (Stream.step? e t).map (·.engine) =
            ((Stream.step? e t).map (Stream.Step.view n)).map (·.engine) := by
          intro t
          rw [Option.map_map]
          rfl
        rw [hengine, hengine, Stream.view_step? n hlike.symm.dropNewest, hview,
          ← Stream.view_step? n hpolicy] }

/-- **Under `DeliveryPolicy.dropNewest` a slow reader disturbs nobody**: of two runs of a stream
that differ only in when and how often one connection looks into its mailbox, either is possible if
the other is, and after every act they are the same but for that mailbox. -/
theorem Stream.undisturbed {serial : Nat} {project engineName : String} {config : StreamConfig}
    {digest : List UInt8 → UInt64} {e : Engine} {n : Nat} {acts acts' : List Stream.Act}
    {last : Stream × List Event} (hpolicy : config.delivery = .dropNewest)
    (hsame : acts'.filter (!·.takes n) = acts.filter (!·.takes n))
    (hacts : (Stream.start serial project engineName config digest e).1.acts? acts = some last) :
    ∃ last', (Stream.start serial project engineName config digest e).1.acts? acts' = some last' ∧
      Undisturbed n last last' := by
  let s := (Stream.start serial project engineName config digest e).1
  have hlike : Stream.LooksLike n s s := ⟨hpolicy, rfl⟩
  have hshown : (s.acts? acts').map (Stream.shown n) = some (Stream.shown n last) := by
    rw [Stream.shown_acts? hlike, hsame, ← Stream.shown_acts? hlike, hacts, Option.map_some]
  obtain ⟨last', hacts', heq⟩ := Option.map_eq_some_iff.1 hshown
  have hconfig : last.1.config.delivery = .dropNewest := by
    rw [s.config_eq_of_acts? hacts]
    exact hpolicy
  exact ⟨last', hacts', .of_shown hconfig heq⟩

/-- With room for one message, the first connection misses a change or reads its greeting in time;
the second connection, which reads, gets the same two messages. -/
theorem undisturbed_by_full_mailbox :
    ∃ acts acts' last last', (trialStream .dropNewest).acts? acts = some last ∧
      (trialStream .dropNewest).acts? acts' = some last' ∧
      last.1.worker.counters.dropped = 1 ∧ last'.1.worker.counters.dropped = 0 ∧
      (placed ⟨0, 1⟩ last.2).length = 2 ∧ Undisturbed 0 last last' := by
  let joining : List Stream.Act :=
    [.connect (.flag "f") none, .connect (.flag "f") none, .work (trialEngine true),
      .work (trialEngine true), .take 1]
  let changing : List Stream.Act := List.replicate 6 (.work (trialEngine false))
  let last := ((trialStream .dropNewest).acts? (joining ++ changing)).get (by decide)
  have hacts : (trialStream .dropNewest).acts? (joining ++ changing) = some last :=
    (Option.some_get _).symm
  have hsame : (joining ++ .take 0 :: changing).filter (!·.takes 0) =
      (joining ++ changing).filter (!·.takes 0) := rfl
  obtain ⟨last', hlast', hundisturbed⟩ := Stream.undisturbed rfl hsame hacts
  have hacts' : (trialStream .dropNewest).acts? (joining ++ .take 0 :: changing) = some last' :=
    hlast'
  have hdropped : ((trialStream .dropNewest).acts? (joining ++ .take 0 :: changing)).map
      (·.1.worker.counters.dropped) = some 0 := by decide
  rw [hacts'] at hdropped
  exact ⟨_, _, last, last', hacts, hacts', by decide, Option.some_inj.1 hdropped, by decide,
    hundisturbed⟩

end FlagFanout
