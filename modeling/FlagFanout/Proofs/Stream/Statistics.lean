import FlagFanout.Proofs.Stream.Delivery
import FlagFanout.Proofs.Stream.Tallies

/-!
# What the figures of a running stream say

The figures of a stream and the reports to its metrics are sums over channels and passes. Here they
are read as sums over connections: what was placed in the mailbox of each, and what met it full
(`account`). The second is told by the offers in the connection's ledger, each with the mailbox as
it stood, and not by what the worker says of them (`Run.snd_deliveries`).

`Run.accounted` says that between two jobs the figures of the stream are the sum over all its
connections, and the reports for a selector the sum over those that watch it.
-/

namespace FlagFanout

/-! ## The account of a connection -/

/-- The connections that were opened, in order. -/
def openings (log : List Event) : List Connection :=
  log.filterMap fun
    | .opened c _ => some c
    | _ => none

/-- The messages that met the mailbox of a connection full: offers to a receiver that had no room
left, and the greeting if mailboxes have no room at all. -/
def refused (capacity : Nat) (id : ConnectionId) (log : List Event) : List Message :=
  (if capacity = 0 then (ledger id log).greeting.toList else []) ++
    ((ledger id log).offers.filter fun o => o.2.listening && o.2.isFull).map (·.1)

/-- How many messages were placed in the mailbox of a connection, and how many met it full. -/
def account (capacity : Nat) (id : ConnectionId) (log : List Event) : Nat × Nat :=
  ((placed id log).length, (refused capacity id log).length)

section Openings

variable {log events : List Event}

theorem mem_openings_iff {c : Connection} :
    c ∈ openings log ↔ ∃ context, .opened c context ∈ log := by
  simp only [openings, List.mem_filterMap]
  constructor
  · rintro ⟨event, hevent, hc⟩
    cases event with
    | opened c' context =>
      cases hc
      exact ⟨context, hevent⟩
    | joined | closed | produced | offered | taken | effect => cases hc
  · rintro ⟨context, hc⟩
    exact ⟨_, hc, rfl⟩

@[simp] theorem openings_append : openings (log ++ events) = openings log ++ openings events :=
  List.filterMap_append

/-- Where no connection is opened there is none to add. -/
theorem openings_eq_nil (h : ∀ c context, .opened c context ∉ events) : openings events = [] :=
  List.eq_nil_iff_forall_not_mem.2 fun c hc =>
    let ⟨context, hopened⟩ := mem_openings_iff.1 hc
    h c context hopened

/-- No connection is opened twice. -/
theorem Run.nodup_openings {s : Stream} (h : Run s log) : ((openings log).map (·.id)).Nodup := by
  have hopen : ∀ {s : Stream} {log : List Event} {c : Connection} {context : Option Context},
      Run s log → ((openings log).map (·.id)).Nodup → c.id = ⟨s.serial, s.mailboxes.next⟩ →
        ((openings (log ++ [.opened c context])).map (·.id)).Nodup := by
    intro s log c context hrun hnodup hid
    have hfresh : c.id ∉ (openings log).map (·.id) := by
      intro hmem
      obtain ⟨c', hc', heq⟩ := List.mem_map.1 hmem
      obtain ⟨context', hopened⟩ := mem_openings_iff.1 hc'
      have hnumber := (hrun.traced.known c' context' hopened).2
      rw [heq, hid] at hnumber
      exact Nat.lt_irrefl _ hnumber
    rw [openings_append, List.map_append]
    refine List.nodup_append'.2 ⟨hnodup, List.nodup_singleton c.id, ?_⟩
    exact List.disjoint_singleton.2 hfresh
  refine h.induct (P := fun _ log => ((openings log).map (·.id)).Nodup)
    (fun _ _ _ _ _ _ => .nil) fun {s log s' events} hrun ih hmove => ?_
  cases hmove with
  | connect hopen' hroom hid => exact hopen hrun ih hid
  | connectClosed hclosed hid => exact hopen hrun ih hid
  | work hturn =>
    rw [openings_append, openings_eq_nil (Traced.not_opened_of_turn hturn), List.append_nil]
    exact ih
  | still | disconnect | take | leave | close =>
    rw [openings_append]
    exact (List.append_nil (openings log)).symm ▸ ih

end Openings

/-! ## Who is sent anything -/

/-- The connection to which a message is sent by an effect, or would be if it had room. -/
def Effect.addressee? : Effect → Option ConnectionId
  | .placed id _ => some id
  | .skipped id _ => some id
  | .metric _ => none

theorem Worker.addressee?_report {selector : Selector} {t : Tally} {f : Effect}
    (h : f ∈ report selector t) : f.addressee? = none := by
  unfold report at h
  rcases List.mem_append.1 h with h | h
  · split at h
    · rw [List.mem_singleton.1 h]
      rfl
    · cases h
  · split at h
    · rw [List.mem_singleton.1 h]
      rfl
    · cases h

theorem Worker.addressee?_closings {pruned : List (Place × Nat)} {f : Effect}
    (h : f ∈ closings pruned) : f.addressee? = none := by
  obtain ⟨e, -, hf⟩ := List.mem_flatMap.1 h
  rw [List.eq_of_mem_replicate hf]
  rfl

theorem Attempt.addressee?_trace {id id' : ConnectionId} {m : Message} {out : Attempt} {f : Effect}
    (h : f ∈ out.trace id m) (hid : f.addressee? = some id') : id = id' := by
  cases out with
  | sent =>
    rw [List.mem_singleton.1 h] at hid
    exact Option.some.inj hid
  | dropped =>
    rw [List.mem_singleton.1 h] at hid
    exact Option.some.inj hid
  | disconnected => cases h
  | waiting => cases h

/-- A step of the worker sends to connections that were opened. -/
theorem Stream.Turn.opened_of_addressee {s : Stream} {e : Engine} {next : Stream.Step}
    {log events : List Event} (hturn : Stream.Turn e s next events) (henrolled : Enrolled s log)
    (htraced : Traced s log) {f : Effect} {id : ConnectionId} (hf : .effect f ∈ events)
    (hid : f.addressee? = some id) : ∃ c ∈ openings log, c.id = id := by
  have hnone : f.addressee? ≠ none := by simp [hid]
  cases hturn with
  | @join id' selector discriminator context queue c out hphase hqueue =>
    have hopened := htraced.of_queue id' selector discriminator context
      (hqueue ▸ List.mem_cons_self)
    refine ⟨_, mem_openings_iff.2 ⟨context, hopened⟩, ?_⟩
    simp only [List.mem_cons, reduceCtorEq, List.mem_map, List.mem_append, Event.effect.injEq,
      exists_eq_right, false_or, List.not_mem_nil, or_false] at hf
    rcases hf with (hf | hf) | rfl
    · exact Attempt.addressee?_trace hf hid
    · exact absurd (Worker.addressee?_report hf) hnone
    · cases hid
  | @serve pass push id' waiting out hphase hwaiting =>
    have hmem := Worker.mem_roster_of_waiting (by rw [hphase]; rfl) hwaiting
    have hplace := (henrolled.mem_roster_iff (by simp [hphase]) push.place id').1 hmem
    obtain ⟨context, hopened⟩ := htraced.of_place id' push.place hplace
    refine ⟨_, mem_openings_iff.2 ⟨context, hopened⟩, ?_⟩
    simp only [List.mem_append, Option.mem_toList, Option.map_eq_some_iff,
      reduceCtorEq, and_false, exists_false, List.mem_map, Event.effect.injEq, exists_eq_right,
      false_or] at hf
    exact Attempt.addressee?_trace hf hid
  | endPass =>
    rw [Worker.endPass_snd] at hf
    obtain ⟨f', hf', heq⟩ := List.mem_map.1 hf
    cases heq
    exact absurd (Worker.addressee?_closings hf') hnone
  | endPush =>
    rw [Worker.endPush_snd] at hf
    obtain ⟨f', hf', heq⟩ := List.mem_map.1 hf
    cases heq
    exact absurd (Worker.addressee?_report hf') hnone
  | depart =>
    simp only [List.mem_cons, reduceCtorEq, Event.effect.injEq, List.not_mem_nil, or_false,
      false_or] at hf
    rw [hf] at hid
    cases hid
  | stop | refuse | begin | pass | stall | resume => cases hf
  | ignore | produce => simp at hf

/-- Nothing is sent to a connection that was not opened. -/
theorem Run.opened_of_addressee {s : Stream} {log : List Event} (h : Run s log) {f : Effect}
    {id : ConnectionId} (hf : .effect f ∈ log) (hid : f.addressee? = some id) :
    ∃ c ∈ openings log, c.id = id := by
  revert hf
  refine h.induct (P := fun _ log => .effect f ∈ log → ∃ c ∈ openings log, c.id = id)
    (fun _ _ _ _ _ _ hf => nomatch hf) fun {s log s' events} hrun ih hmove hf => ?_
  have hold : .effect f ∈ log → ∃ c ∈ openings (log ++ events), c.id = id := fun hf =>
    (ih hf).imp fun c hc => ⟨openings_append ▸ List.mem_append_left _ hc.1, hc.2⟩
  rcases List.mem_append.1 hf with hf | hf
  · exact hold hf
  · cases hmove with
    | work hturn =>
      obtain ⟨c, hc, heq⟩ := hturn.opened_of_addressee hrun.enrolled hrun.traced hf hid
      exact ⟨c, openings_append ▸ List.mem_append_left _ hc, heq⟩
    | connect | connectClosed | take => simp at hf
    | still | disconnect | leave | close => cases hf

/-! ## What is counted, connection by connection -/

section Counting

variable {log : List Event}

/-- What is counted depends on the connections that are sent anything. -/
theorem deliveries_congr {q q' : ConnectionId → Bool}
    (h : ∀ f id, .effect f ∈ log → f.addressee? = some id → q id = q' id) :
    deliveries q log = deliveries q' log := by
  unfold deliveries
  congr 1
  refine List.map_congr_left fun event hevent => ?_
  cases event with
  | effect f =>
    cases f with
    | placed id m => simp only [h _ id hevent rfl]
    | skipped id m => simp only [h _ id hevent rfl]
    | metric m => rfl
  | opened | joined | closed | produced | offered | taken => rfl

theorem deliveries_false : deliveries (fun _ => false) log = 0 := by
  refine List.sum_eq_zero fun v hv => ?_
  obtain ⟨event, -, rfl⟩ := List.mem_map.1 hv
  split <;> rfl

/-- What is sent to one connection and to others is counted apart. -/
theorem deliveries_or {q : ConnectionId → Bool} {id : ConnectionId} (h : q id = false) :
    deliveries (fun id' => id' = id || q id') log =
      deliveries (· = id) log + deliveries q log := by
  unfold deliveries
  rw [← List.sum_map_add]
  congr 1
  refine List.map_congr_left fun event _ => ?_
  have hsplit : ∀ (id' : ConnectionId) (v : Nat × Nat), (if id' = id || q id' then v else 0) =
      (if decide (id' = id) then v else 0) + if q id' then v else 0 := by
    intro id' v
    by_cases heq : id' = id
    · simp [heq, h]
    · simp [heq]
  cases event with
  | effect f =>
    cases f with
    | placed id' m => exact hsplit id' (1, 0)
    | skipped id' m => exact hsplit id' (0, 1)
    | metric m => rfl
  | opened | joined | closed | produced | offered | taken => rfl

/-- What is sent to several connections is the sum over them. -/
theorem sum_deliveries {ids : List ConnectionId} (hnodup : ids.Nodup) :
    (ids.map fun id => deliveries (· = id) log).sum = deliveries (· ∈ ids) log := by
  induction ids with
  | nil =>
    rw [List.map_nil, List.sum_nil]
    exact (deliveries_congr fun _ _ _ _ => by simp).trans deliveries_false |>.symm
  | cons id rest ih =>
    obtain ⟨hid, hrest⟩ := List.nodup_cons.1 hnodup
    rw [List.map_cons, List.sum_cons, ih hrest, ← deliveries_or (by simpa using hid)]
    exact deliveries_congr fun _ id' _ _ => by simp

theorem fst_deliveries (id : ConnectionId) (log : List Event) :
    (deliveries (· = id) log).1 = (placed id log).length := by
  induction log with
  | nil => rfl
  | cons event rest ih =>
    have hcons : ∀ log, event :: log = [event] ++ log := fun _ => rfl
    rw [hcons, deliveries_append, placed_append, List.length_append, ← ih]
    refine congrArg (· + _) ?_
    cases event with
    | effect f =>
      cases f with
      | placed id' m => by_cases heq : id' = id <;> simp [deliveries, placed, heq]
      | skipped id' m => by_cases heq : id' = id <;> simp [deliveries, placed, heq]
      | metric m => rfl
    | opened | joined | closed | produced | offered | taken => rfl

end Counting

/-! ## Messages that met a full mailbox -/

section Refusals

variable {s : Stream} {log events : List Event}

/-- What was refused is told by the greeting and the offers. -/
theorem refused_congr {capacity : Nat} {id : ConnectionId}
    (hgreeting : (ledger id (log ++ events)).greeting = (ledger id log).greeting)
    (hoffers : (ledger id (log ++ events)).offers = (ledger id log).offers) :
    refused capacity id (log ++ events) = refused capacity id log := by
  rw [refused, hgreeting, hoffers, refused]

/-- A newcomer is refused nothing but its greeting. -/
theorem refused_greeting {capacity : Nat} {id : ConnectionId} {place : Place} {m : Message}
    {effects : List Effect} (hblank : ledger id log = .blank) :
    refused capacity id (log ++ .joined id place m :: effects.map .effect) =
      refused capacity id log ++ if capacity = 0 then [m] else [] := by
  rw [refused, refused, ledger_joined, if_pos rfl, hblank]
  split <;> rfl

/-- An offer to a receiver without room is refused. -/
theorem refused_offered {capacity : Nat} {id id' : ConnectionId} {m : Message} {box : Mailbox}
    {effects : List Effect} :
    refused capacity id (log ++ ([.offered id' m box] ++ effects.map .effect)) =
      refused capacity id log ++
        if id' = id ∧ (box.listening && box.isFull) = true then [m] else [] := by
  rw [refused, ledger_offered]
  by_cases heq : id' = id
  · rw [if_pos heq, List.filter_append, List.map_append, ← List.append_assoc]
    refine congrArg (refused capacity id log ++ ·) ?_
    cases hfull : box.listening && box.isFull <;> simp [heq, hfull]
  · have hnone : ¬(id' = id ∧ (box.listening && box.isFull) = true) := fun hc => heq hc.1
    rw [if_neg heq, if_neg hnone, List.append_nil, refused]

/-- An offer that need not wait is skipped if it meets a full mailbox. -/
theorem Mailbox.snd_figures_tally {policy : DeliveryPolicy} {box : Mailbox}
    (hout : box.attempt policy ≠ .waiting) :
    (box.attempt policy).tally.figures.2 = if box.listening && box.isFull then 1 else 0 := by
  unfold attempt at hout ⊢
  cases hlistening : box.listening <;> cases hfull : box.isFull <;> cases policy <;>
    simp [hlistening, hfull] at hout ⊢ <;> rfl

/-- A newcomer's greeting is skipped exactly if mailboxes have no room at all. -/
theorem Offered.snd_figures_greeting {id : ConnectionId} (h : Offered s log id)
    (henrolled : Enrolled s log) (hkept : Kept s log) (hid : id ∈ newcomers s.queue) {out : Attempt}
    (hattempt : s.mailboxes.attempt s.config.delivery id.number = out)
    (hout : out = .sent ∨ out = .dropped) :
    out.tally.figures.2 = if s.config.mailboxCapacity = 0 then 1 else 0 := by
  by_cases hroom : 0 < s.config.mailboxCapacity
  · have hsent := h.attempt_newcomer henrolled hkept hroom hid
      (by rw [hattempt]; rcases hout with rfl | rfl <;> simp)
    rw [hattempt] at hsent
    rw [if_neg (Nat.ne_of_gt hroom), hsent]
    rfl
  · rw [if_pos (Nat.eq_zero_of_not_pos hroom)]
    rcases hout with rfl | rfl
    · exact absurd (hkept.room_of_sent hattempt) hroom
    · rfl

theorem Stream.Turn.length_refused {e : Engine} {next : Stream.Step}
    (hturn : Stream.Turn e s next events) (hrun : Run s log) (id : ConnectionId) :
    (refused s.config.mailboxCapacity id (log ++ events)).length =
      (refused s.config.mailboxCapacity id log).length + (deliveries (· = id) events).2 := by
  have hquiet : ∀ {events : List Event}, deliveries (· = id) events = 0 →
      (ledger id (log ++ events)).greeting = (ledger id log).greeting →
      (ledger id (log ++ events)).offers = (ledger id log).offers →
      (refused s.config.mailboxCapacity id (log ++ events)).length =
        (refused s.config.mailboxCapacity id log).length + (deliveries (· = id) events).2 :=
    fun hnone hgreeting hoffers => by rw [refused_congr hgreeting hoffers, hnone]; rfl
  cases hturn with
  | @join id' selector discriminator context queue c out hphase hqueue hchannel hattempt hout =>
    have hnew : id' ∈ newcomers s.queue := by rw [hqueue]; exact List.mem_cons_self
    have hsent : deliveries (· = id) (.joined id' (selector, discriminator) c.last.message ::
        (out.trace id' c.last.message ++ Worker.report selector out.tally ++
          [Effect.metric (.opened selector)]).map .effect) =
        if id' = id then out.tally.figures else 0 := by
      rw [deliveries_joined, List.map_append, List.map_append, deliveries_append,
        deliveries_append, deliveries_trace, deliveries_report, add_zero]
      simp only [decide_eq_true_eq]
      exact add_zero _
    rw [hsent]
    by_cases heq : id' = id
    · subst heq
      rw [refused_greeting (hrun.enrolled.blank_of_newcomer id' hnew), List.length_append,
        if_pos rfl,
        (hrun.offered id').snd_figures_greeting hrun.enrolled hrun.kept hnew hattempt hout]
      split <;> rfl
    · rw [if_neg heq]
      refine congrArg List.length (refused_congr ?_ ?_) <;> rw [ledger_joined, if_neg heq]
  | @serve pass push id' waiting out hphase hwaiting hattempt hout =>
    obtain ⟨box, hbox⟩ := hrun.enrolled.exists_box (by rw [hphase]; rfl) hwaiting
    have hbox' : box.attempt s.config.delivery = out := Mailboxes.attempt_of_get? hbox _ ▸ hattempt
    have hserved : box.attempt s.config.delivery ≠ .waiting := hbox' ▸ hout
    have hskipped := Mailbox.snd_figures_tally hserved
    rw [hbox'] at hskipped
    have hsent : deliveries (· = id)
        (((s.mailboxes.get? id'.number).map (.offered id' push.message ·)).toList ++
          (out.trace id' push.message).map .effect) =
        if id' = id then out.tally.figures else 0 := by
      rw [deliveries_append, deliveries_offered, deliveries_trace, zero_add]
      simp only [decide_eq_true_eq]
    rw [hsent, hbox, Option.map_some, Option.toList_some, refused_offered, List.length_append]
    by_cases heq : id' = id
    · rw [if_pos heq, hskipped]
      cases hfull : box.listening && box.isFull <;> simp [heq]
    · simp [heq]
  | @ignore id' selector discriminator =>
    have hmail := sameMail_closed id log id' (selector, discriminator) []
    exact hquiet rfl hmail.greeting_eq hmail.offers_eq
  | @depart id' selector discriminator =>
    have hmail := sameMail_closed id log id' (selector, discriminator) [.metric (.closed selector)]
    exact hquiet rfl hmail.greeting_eq hmail.offers_eq
  | @produce pass place todo c last m =>
    refine hquiet rfl ?_ ?_ <;> rw [ledger_produced] <;> split <;> rfl
  | endPass =>
    rw [Worker.endPass_snd]
    exact hquiet (deliveries_closings ..) (by rw [ledger_append_effects])
      (by rw [ledger_append_effects])
  | endPush =>
    rw [Worker.endPush_snd]
    exact hquiet (deliveries_report ..) (by rw [ledger_append_effects])
      (by rw [ledger_append_effects])
  | stop | refuse | begin | pass | stall | resume =>
    exact hquiet rfl (by rw [ledger_append_nil]) (by rw [ledger_append_nil])

/-- **What is skipped is what meets a full mailbox.** -/
theorem Run.snd_deliveries (h : Run s log) (id : ConnectionId) :
    (deliveries (· = id) log).2 = (refused s.config.mailboxCapacity id log).length := by
  refine h.induct (P := fun s log => (deliveries (· = id) log).2 =
    (refused s.config.mailboxCapacity id log).length)
    (fun _ _ _ _ _ _ => by unfold refused; split <;> rfl) fun {s log s' events} hrun ih hmove => ?_
  have hclient : ∀ {events : List Event}, deliveries (· = id) events = 0 →
      ledger id (log ++ events) = ledger id log → (deliveries (· = id) (log ++ events)).2 =
        (refused s.config.mailboxCapacity id (log ++ events)).length := by
    intro events hnone hledger
    rw [deliveries_append, hnone, add_zero, ih, refused_congr (by rw [hledger]) (by rw [hledger])]
  rw [hmove.config_eq]
  cases hmove with
  | work hturn =>
    rw [deliveries_append, hturn.length_refused hrun, ← ih]
    rfl
  | connect | connectClosed => exact hclient rfl (ledger_opened ..)
  | take => exact hclient rfl (ledger_taken ..)
  | still | disconnect | leave | close => exact hclient rfl (ledger_append_nil ..)

end Refusals

/-! ## The figures between two jobs -/

/-- The figures and the reports of a stream are the accounts of its connections put together. -/
structure Accounted (s : Stream) (log : List Event) : Prop where
  nodup : ((openings log).map (·.id)).Nodup
  /-- Nothing is placed and nothing refused elsewhere. -/
  of_stranger : ∀ id, (∀ c ∈ openings log, c.id ≠ id) → account s.config.mailboxCapacity id log = 0
  figures_eq : s.worker.counters.figures =
    ((openings log).map fun c => account s.config.mailboxCapacity c.id log).sum
  reported_eq : ∀ selector, reported (· = selector) log =
    (((openings log).filter (·.selector = selector)).map fun c =>
      account s.config.mailboxCapacity c.id log).sum

theorem Run.account_eq {s : Stream} {log : List Event} (h : Run s log) (id : ConnectionId) :
    account s.config.mailboxCapacity id log = deliveries (· = id) log :=
  Prod.ext (fst_deliveries id log).symm (h.snd_deliveries id).symm

/-- The accounts of the connections whose selector passes a test show all that was sent there. -/
theorem Run.sum_account {s : Stream} {log : List Event} (h : Run s log)
    {site : ConnectionId → Selector} (hsite : IsSite site log) (p : Selector → Bool) :
    (((openings log).filter (p ·.selector)).map fun c =>
      account s.config.mailboxCapacity c.id log).sum = deliveries (fun id => p (site id)) log := by
  have hnodup : (((openings log).filter (p ·.selector)).map (·.id)).Nodup :=
    h.nodup_openings.sublist (List.filter_sublist.map _)
  have hids : (((openings log).filter (p ·.selector)).map fun c =>
      account s.config.mailboxCapacity c.id log) =
        (((openings log).filter (p ·.selector)).map (·.id)).map fun id =>
          deliveries (· = id) log := by
    rw [List.map_map]
    exact List.map_congr_left fun c _ => h.account_eq c.id
  rw [hids, sum_deliveries hnodup]
  refine deliveries_congr fun f id hf hid => ?_
  obtain ⟨c, hc, rfl⟩ := h.opened_of_addressee hf hid
  obtain ⟨context, hopened⟩ := mem_openings_iff.1 hc
  rw [Bool.eq_iff_iff, decide_eq_true_iff, hsite c context hopened]
  constructor
  · intro hmem
    obtain ⟨c', hc', heq⟩ := List.mem_map.1 hmem
    obtain ⟨hc', hp⟩ := List.mem_filter.1 hc'
    obtain ⟨context', hopened'⟩ := mem_openings_iff.1 hc'
    rwa [← h.traced.unique c' c _ _ hopened' hopened heq]
  · intro hp
    exact List.mem_map.2 ⟨c, List.mem_filter.2 ⟨hc, hp⟩, rfl⟩

/-- **Between two jobs the figures count every delivery**: what was placed in the mailboxes of all
connections and what met them full, and the reports for a selector the same of the connections that
watch it. -/
theorem Run.accounted {s : Stream} {log : List Event} (h : Run s log)
    (hphase : s.worker.phase = .idle) : Accounted s log := by
  have htallied := h.tallied (by simp [hphase])
  obtain ⟨site, hsite⟩ := h.traced.exists_isSite
  have hsum : ∀ p : Selector → Bool, (((openings log).filter (p ·.selector)).map fun c =>
      account s.config.mailboxCapacity c.id log).sum = reported p log := by
    intro p
    rw [h.sum_account hsite, htallied.deliveries_eq site hsite, hphase]
    exact add_zero _
  refine
    { nodup := h.nodup_openings
      of_stranger := fun id hid => ?_
      figures_eq := ?_
      reported_eq := fun selector => (hsum (· = selector)).symm }
  · have hnone : deliveries (fun _ => false) log = 0 := deliveries_false
    rw [h.account_eq, ← hnone]
    refine deliveries_congr fun f id' hf hid' => decide_eq_false fun heq => ?_
    obtain ⟨c, hc, hcid⟩ := h.opened_of_addressee hf hid'
    exact hid c hc (hcid.trans heq)
  · have hall := hsum fun _ => true
    rw [List.filter_true] at hall
    rw [hall, htallied.reported_eq, hphase]
    exact (add_zero _).symm

/-- Of two connections that watch different selectors, one reads in time and the other meets a
change with its mailbox full. -/
theorem accounted_after_skip :
    ∃ s log, Run s log ∧ s.worker.phase = .idle ∧ s.worker.counters.figures = (3, 1) ∧
      reported (· = .flag "f") log = (2, 0) ∧ reported (· = .all) log = (1, 1) ∧
      Accounted s log := by
  let e := trialEngine false
  let acts : List Stream.Act :=
    [.connect (.flag "f") none, .connect .all none, .work e, .work e, .take 0] ++
      List.replicate 8 (.work (trialEngine true))
  let last := ((trialStream .dropNewest).acts? acts).get (by decide)
  have hrun : Run last.1 last.2 := by
    rw [← List.nil_append last.2]
    exact (run_trialStream .dropNewest).acts (Option.some_get _).symm
  have hidle : last.1.worker.phase = .idle := by rfl
  exact ⟨last.1, last.2, hrun, hidle, by decide, by decide, by decide, hrun.accounted hidle⟩

end FlagFanout
