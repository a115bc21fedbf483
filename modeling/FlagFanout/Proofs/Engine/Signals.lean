import FlagFanout.Engine.Signals

/-!
# Laws of change signals

What every operation on subscriptions does to the feed at one place. A feed that is subscribed and
has a receiver is never lost (`Feed.IsLive`): only its own subscriber, its own receiver or a poll of
it change it, apart from a publication, after which a signal is pending there. A subscriber that is
not served stays so until it subscribes (`Signals.Serves`).
-/

namespace FlagFanout

namespace Feed

/-- The engine holds the sending end and the receiving end exists. -/
structure IsLive (f : Feed) (who : Subscriber) : Prop where
  subscriber_eq : f.subscriber = who
  subscribed : f.subscribed = true
  listening : f.listening = true

theorem IsLive.notify_eq {f : Feed} {who : Subscriber} (h : f.IsLive who) :
    f.notify = { f with pending := true } := by
  rw [notify, h.subscribed, h.listening, if_pos rfl, if_pos rfl]

theorem IsLive.notify {f : Feed} {who : Subscriber} (h : f.IsLive who) :
    f.notify.IsLive who := by
  rw [h.notify_eq]
  exact ⟨h.subscriber_eq, h.subscribed, h.listening⟩

theorem IsLive.poll {f : Feed} {who : Subscriber} (h : f.IsLive who) : f.poll.2.IsLive who := by
  rw [Feed.poll]
  split
  · exact ⟨h.subscriber_eq, h.subscribed, h.listening⟩
  · rw [if_pos h.subscribed]
    exact h

theorem poll_of_pending {f : Feed} (h : f.pending = true) :
    f.poll = (.signal, { f with pending := false }) := by
  rw [poll, if_pos h]

end Feed

namespace Signals

/-- The feed whose receiver is at a place. -/
def feed? (s : Signals) (receiver : Nat) : Option Feed := s.feeds[receiver]?

variable (s : Signals) (who : Subscriber) (receiver receiver' : Nat)

@[simp] theorem feed?_publish : s.publish.feed? receiver = (s.feed? receiver).map .notify :=
  List.getElem?_map

@[simp] theorem feed?_unsubscribe :
    (s.unsubscribe who).feed? receiver =
      (s.feed? receiver).map fun f => if f.subscriber = who then f.cut else f :=
  List.getElem?_map

theorem feed?_subscribe_of_lt (h : receiver < s.nextReceiver) :
    (s.subscribe who).feed? receiver = (s.unsubscribe who).feed? receiver := by
  have hlength : receiver < (s.unsubscribe who).feeds.length := by
    rw [unsubscribe, ofSubscriber, List.length_map]
    exact h
  exact List.getElem?_append_left hlength

@[simp] theorem feed?_subscribe_self :
    (s.subscribe who).feed? s.nextReceiver = some ⟨who, true, true, false⟩ := by
  have hlength : (s.unsubscribe who).feeds.length = s.nextReceiver := by
    simp [unsubscribe, ofSubscriber, nextReceiver]
  rw [feed?, subscribe, ← hlength]
  exact List.getElem?_concat_length

theorem poll_fst_of_feed? {f : Feed} (h : s.feed? receiver = some f) :
    (s.poll receiver).1 = f.poll.1 := by
  rw [feed?] at h
  simp only [poll, h]

theorem feed?_poll :
    (s.poll receiver').2.feed? receiver =
      if receiver = receiver' then (s.feed? receiver).map (·.poll.2) else s.feed? receiver := by
  unfold poll feed?
  cases hfeed : s.feeds[receiver']? with
  | none =>
    change s.feeds[receiver]? = _
    split
    · next heq => rw [heq, hfeed]; rfl
    · rfl
  | some f =>
    have hlt : receiver' < s.feeds.length := (List.getElem?_eq_some_iff.1 hfeed).1
    simp only [List.getElem?_set]
    by_cases heq : receiver = receiver'
    · subst heq
      rw [if_pos rfl, if_pos rfl, if_pos hlt, hfeed]
      rfl
    · rw [if_neg (Ne.symm heq), if_neg heq]

theorem feed?_dropReceiver_of_ne (h : receiver ≠ receiver') :
    (s.dropReceiver receiver').feed? receiver = s.feed? receiver := by
  simp only [feed?, dropReceiver, List.getElem?_modify, if_neg (Ne.symm h)]
  exact Option.map_id_apply

theorem lt_of_feed? {s : Signals} {receiver : Nat} {f : Feed} (h : s.feed? receiver = some f) :
    receiver < s.nextReceiver :=
  (List.getElem?_eq_some_iff.1 h).1

/-! ## Who is served -/

/-- The engine holds a subscription of a subscriber. -/
def Serves (s : Signals) (who : Subscriber) : Prop :=
  ∃ f ∈ s.feeds, f.subscriber = who ∧ f.subscribed = true

namespace Serves

variable {s : Signals} {who who' : Subscriber} {receiver : Nat}

/-- Where every feed was one of the same subscriber that was subscribed before, nobody is served
anew. -/
theorem of_feeds {s' : Signals} (hserves : s'.Serves who)
    (h : ∀ f' ∈ s'.feeds, ∃ f ∈ s.feeds, f.subscriber = f'.subscriber ∧
      (f'.subscribed = true → f.subscribed = true)) : s.Serves who := by
  obtain ⟨f', hf', hwho, hsubscribed⟩ := hserves
  obtain ⟨f, hf, hsubscriber, himp⟩ := h f' hf'
  exact ⟨f, hf, hsubscriber.trans hwho, himp hsubscribed⟩

theorem of_publish (h : s.publish.Serves who) : s.Serves who := by
  refine h.of_feeds fun f' hf' => ?_
  obtain ⟨f, hf, rfl⟩ := List.mem_map.1 hf'
  refine ⟨f, hf, ?_, ?_⟩
  · unfold Feed.notify Feed.cut
    split
    · split <;> rfl
    · rfl
  · unfold Feed.notify
    split
    · next hsubscribed => exact fun _ => hsubscribed
    · exact id

theorem of_unsubscribe (h : (s.unsubscribe who').Serves who) : s.Serves who ∧ who ≠ who' := by
  obtain ⟨f', hf', hwho, hsubscribed⟩ := h
  obtain ⟨f, hf, rfl⟩ := List.mem_map.1 hf'
  by_cases heq : f.subscriber = who'
  · rw [if_pos heq] at hsubscribed
    cases hsubscribed
  · rw [if_neg heq] at hwho hsubscribed
    exact ⟨⟨f, hf, hwho, hsubscribed⟩, hwho ▸ heq⟩

theorem of_subscribe (h : (s.subscribe who').Serves who) (hne : who ≠ who') : s.Serves who := by
  obtain ⟨f, hf, hwho, hsubscribed⟩ := h
  rcases List.mem_append.1 hf with hold | hnew
  · exact (of_unsubscribe ⟨f, hold, hwho, hsubscribed⟩).1
  · rw [List.mem_singleton.1 hnew] at hwho
    exact absurd hwho.symm hne

theorem of_poll (h : (s.poll receiver).2.Serves who) : s.Serves who := by
  unfold poll at h
  split at h
  · next f hfeed =>
    refine h.of_feeds fun f' hf' => ?_
    rcases List.mem_or_eq_of_mem_set hf' with hmem | rfl
    · exact ⟨f', hmem, rfl, id⟩
    · refine ⟨f, List.mem_of_getElem? hfeed, ?_, ?_⟩
      · unfold Feed.poll
        split
        · rfl
        · split <;> rfl
      · unfold Feed.poll
        split
        · exact id
        · split <;> exact id
  · exact h

theorem of_dropReceiver (h : (s.dropReceiver receiver).Serves who) : s.Serves who := by
  refine h.of_feeds fun f' hf' => ?_
  obtain ⟨n, hn⟩ := List.mem_iff_getElem?.1 hf'
  rw [dropReceiver, List.getElem?_modify] at hn
  obtain ⟨f, hf, rfl⟩ := Option.map_eq_some_iff.1 hn
  refine ⟨f, List.mem_of_getElem? hf, ?_, ?_⟩
  · split <;> rfl
  · split <;> exact id

end Serves

end Signals

end FlagFanout
