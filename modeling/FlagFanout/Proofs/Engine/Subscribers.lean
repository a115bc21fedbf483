import FlagFanout.Engine
import FlagFanout.Proofs.Engine.Signals

/-!
# Who subscribes to an engine

`Signals.subscribers` lists whose subscriptions an engine holds, so that their number is the length
of a list (`length_subscribers`) and every operation on subscriptions is one equation about it. Only
a publication looks at more: it drops those whose receiver is gone, and nobody where everybody
listens (`AllListen`).
-/

namespace FlagFanout

namespace Feed

variable (f : Feed)

/-- Whose subscription the engine holds with a feed. -/
def holder? : Option Subscriber := if f.subscribed then some f.subscriber else none

theorem holder?_eq_some_iff {who : Subscriber} :
    f.holder? = some who ↔ f.subscriber = who ∧ f.subscribed = true := by
  unfold holder?
  cases f.subscribed <;> simp

theorem subscriber_poll : f.poll.2.subscriber = f.subscriber := by
  unfold poll
  split
  · rfl
  · split <;> rfl

theorem subscribed_poll : f.poll.2.subscribed = f.subscribed := by
  unfold poll
  split
  · rfl
  · split <;> rfl

theorem listening_poll : f.poll.2.listening = f.listening := by
  unfold poll
  split
  · rfl
  · split <;> rfl

theorem holder?_poll : f.poll.2.holder? = f.holder? := by
  rw [holder?, subscribed_poll, subscriber_poll, holder?]

theorem subscribed_notify : f.notify.subscribed = (f.subscribed && f.listening) := by
  unfold notify
  cases hsubscribed : f.subscribed <;> cases hlistening : f.listening <;> simp [hsubscribed, cut]

theorem subscriber_notify : f.notify.subscriber = f.subscriber := by
  unfold notify cut
  split
  · split <;> rfl
  · rfl

theorem listening_notify : f.notify.listening = f.listening := by
  unfold notify cut
  split
  · split <;> rfl
  · rfl

variable {f} in
theorem holder?_notify (h : f.subscribed = true → f.listening = true) :
    f.notify.holder? = f.holder? := by
  have hsubscribed : f.notify.subscribed = f.subscribed := by
    rw [subscribed_notify]
    cases hcases : f.subscribed with
    | true => rw [h hcases]; rfl
    | false => rfl
  rw [holder?, hsubscribed, subscriber_notify, holder?]

end Feed

namespace Signals

variable (s : Signals) (who : Subscriber) (receiver : Nat)

/-- Whose subscriptions the engine holds, in the order in which they were taken. -/
def subscribers : List Subscriber := s.feeds.filterMap Feed.holder?

theorem length_subscribers : s.subscribers.length = s.subscriberCount := by
  rw [subscribers, List.length_filterMap_eq_countP, subscriberCount]
  refine List.countP_congr fun f _ => ?_
  unfold Feed.holder?
  cases f.subscribed <;> simp

theorem mem_subscribers_iff : who ∈ s.subscribers ↔ s.Serves who := by
  simp only [subscribers, List.mem_filterMap, Feed.holder?_eq_some_iff, Serves]

variable {s} in
theorem subscribers_congr {s' : Signals}
    (h : s'.feeds.map Feed.holder? = s.feeds.map Feed.holder?) :
    s'.subscribers = s.subscribers := by
  have hid : ∀ feeds : List Feed, feeds.filterMap Feed.holder? =
      (feeds.map Feed.holder?).filterMap id := by
    intro feeds
    rw [List.filterMap_map, Function.id_comp]
  rw [subscribers, hid, h, ← hid, subscribers]

theorem subscribers_unsubscribe :
    (s.unsubscribe who).subscribers = s.subscribers.filter (· ≠ who) := by
  unfold subscribers unsubscribe ofSubscriber
  rw [List.filterMap_map, List.filter_filterMap]
  refine congrArg (List.filterMap · _) (funext fun f => ?_)
  by_cases heq : f.subscriber = who
  · unfold Feed.holder?
    cases f.subscribed <;> simp [heq, Feed.cut, Option.filter]
  · unfold Feed.holder?
    cases hsubscribed : f.subscribed <;> simp [heq, hsubscribed, Option.filter]

theorem subscribers_subscribe :
    (s.subscribe who).subscribers = s.subscribers.filter (· ≠ who) ++ [who] := by
  rw [← subscribers_unsubscribe]
  exact List.filterMap_append

variable {s who} in
theorem serves_unsubscribe_iff {who' : Subscriber} :
    (s.unsubscribe who).Serves who' ↔ s.Serves who' ∧ who' ≠ who := by
  rw [← mem_subscribers_iff, ← mem_subscribers_iff, subscribers_unsubscribe, List.mem_filter,
    decide_eq_true_iff]

variable {s who} in
theorem serves_subscribe_iff {who' : Subscriber} :
    (s.subscribe who).Serves who' ↔ s.Serves who' ∨ who' = who := by
  rw [← mem_subscribers_iff, ← mem_subscribers_iff, subscribers_subscribe, List.mem_append,
    List.mem_filter, List.mem_singleton, decide_eq_true_iff]
  by_cases heq : who' = who
  · simp [heq]
  · simp [heq]

variable {s} in
theorem nodup_subscribe (h : s.subscribers.Nodup) : (s.subscribe who).subscribers.Nodup := by
  rw [subscribers_subscribe]
  refine List.nodup_append.2 ⟨h.filter _, List.pairwise_singleton _ who, fun a ha b hb => ?_⟩
  rw [List.mem_singleton.1 hb]
  exact of_decide_eq_true (List.mem_filter.1 ha).2

theorem subscribers_poll : (s.poll receiver).2.subscribers = s.subscribers := by
  unfold poll
  split
  · next f hf =>
    obtain ⟨hlt, rfl⟩ := List.getElem?_eq_some_iff.1 hf
    refine subscribers_congr ?_
    rw [List.map_set, Feed.holder?_poll, ← List.map_set, List.set_getElem_self]
  · rfl

/-! ## Receivers that exist -/

/-- Everybody whose subscription the engine holds has a receiver. -/
def AllListen : Prop := ∀ f ∈ s.feeds, f.subscribed = true → f.listening = true

variable {s}

theorem AllListen.subscribers_publish (h : s.AllListen) :
    s.publish.subscribers = s.subscribers := by
  refine subscribers_congr ?_
  rw [publish, List.map_map]
  exact List.map_congr_left fun f hf => Feed.holder?_notify (h f hf)

variable (s) in
/-- After a publication nobody without a receiver is left. -/
theorem allListen_publish : s.publish.AllListen := by
  intro f' hf' hsubscribed
  obtain ⟨f, -, rfl⟩ := List.mem_map.1 hf'
  rw [Feed.subscribed_notify, Bool.and_eq_true] at hsubscribed
  rw [Feed.listening_notify]
  exact hsubscribed.2

theorem AllListen.unsubscribe (h : s.AllListen) : (s.unsubscribe who).AllListen := by
  intro f' hf' hsubscribed
  obtain ⟨f, hf, rfl⟩ := List.mem_map.1 hf'
  split at hsubscribed
  · cases hsubscribed
  · next hne =>
    rw [if_neg hne]
    exact h f hf hsubscribed

theorem AllListen.subscribe (h : s.AllListen) : (s.subscribe who).AllListen := by
  intro f hf hsubscribed
  rcases List.mem_append.1 hf with hold | hnew
  · exact h.unsubscribe who f hold hsubscribed
  · rw [List.mem_singleton.1 hnew]

theorem AllListen.poll (h : s.AllListen) : (s.poll receiver).2.AllListen := by
  intro f' hf' hsubscribed
  unfold Signals.poll at hf'
  split at hf'
  · next f hf =>
    rcases List.mem_or_eq_of_mem_set hf' with hmem | rfl
    · exact h f' hmem hsubscribed
    · rw [Feed.subscribed_poll] at hsubscribed
      rw [Feed.listening_poll]
      exact h f (List.mem_of_getElem? hf) hsubscribed
  · exact h f' hf' hsubscribed

end Signals

end FlagFanout
