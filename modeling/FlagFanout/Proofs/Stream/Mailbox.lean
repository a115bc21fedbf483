import FlagFanout.Stream.Worker
import Mathlib.Tactic.ByContra

/-!
# Laws of mailboxes

When a mailbox accepts a message, what an offer does to the mailboxes of a stream, and what the
outcome of a delivery adds to a tally and does outside the worker.
-/

namespace FlagFanout

/-! ## Outcomes of a delivery -/

namespace Attempt

/-- The outcome as a tally of one delivery. -/
def tally : Attempt → Tally
  | sent => ⟨1, 0, 0⟩
  | dropped => ⟨0, 1, 0⟩
  | disconnected => ⟨0, 0, 1⟩
  | waiting => .zero

/-- What the outcome does outside the worker. -/
def trace (id : ConnectionId) (m : Message) : Attempt → List Effect
  | sent => [.placed id m]
  | dropped => [.skipped id m]
  | disconnected => []
  | waiting => []

end Attempt

namespace Mailbox

/-- Whether there is a receiver and room for one more message. -/
def accepts (b : Mailbox) : Bool := b.listening && !b.isFull

theorem attempt_eq_disconnected_iff {policy : DeliveryPolicy} {b : Mailbox} :
    b.attempt policy = .disconnected ↔ b.listening = false := by
  unfold attempt
  cases b.listening <;> cases b.isFull <;> cases policy <;> simp

theorem attempt_eq_sent_iff {policy : DeliveryPolicy} {b : Mailbox} :
    b.attempt policy = .sent ↔ b.accepts = true := by
  unfold attempt accepts
  cases b.listening <;> cases b.isFull <;> cases policy <;> simp

theorem attempt_eq_dropped_iff {policy : DeliveryPolicy} {b : Mailbox} :
    b.attempt policy = .dropped ↔
      b.listening = true ∧ b.isFull = true ∧ policy = .dropNewest := by
  unfold attempt
  cases b.listening <;> cases b.isFull <;> cases policy <;> simp

theorem attempt_eq_waiting_iff {policy : DeliveryPolicy} {b : Mailbox} :
    b.attempt policy = .waiting ↔ b.listening = true ∧ b.isFull = true ∧ policy = .block := by
  unfold attempt
  cases b.listening <;> cases b.isFull <;> cases policy <;> simp

theorem offer_of_ne_sent {policy : DeliveryPolicy} {b : Mailbox} (h : b.attempt policy ≠ .sent)
    (m : Message) : b.offer policy m = b := by
  rw [offer, if_neg h]

theorem offer_of_sent {policy : DeliveryPolicy} {b : Mailbox} (h : b.attempt policy = .sent)
    (m : Message) : b.offer policy m = b.push m := by
  rw [offer, if_pos h]

/-- What is offered to a receiver without waiting is accepted or dropped. -/
theorem accepts_or_dropped {policy : DeliveryPolicy} {b : Mailbox}
    (hserved : b.attempt policy ≠ .waiting) (hlistening : b.listening = true) :
    b.accepts = true ∨ b.attempt policy = .dropped := by
  unfold attempt at hserved ⊢
  rw [accepts, hlistening]
  rw [hlistening] at hserved
  cases hfull : b.isFull with
  | false => exact .inl rfl
  | true =>
    cases policy with
    | dropNewest => exact .inr rfl
    | block => simp [hfull] at hserved

/-- Where a full mailbox makes the worker wait, whoever is served had room. -/
theorem accepts_of_block {b : Mailbox} (hserved : b.attempt .block ≠ .waiting)
    (hlistening : b.listening = true) : b.accepts = true := by
  refine (accepts_or_dropped hserved hlistening).resolve_right fun hdropped => ?_
  cases (attempt_eq_dropped_iff.1 hdropped).2.2

theorem accepts_iff {b : Mailbox} :
    b.accepts = true ↔ b.listening = true ∧ b.messages.length < b.capacity := by
  simp [accepts, isFull]

/-- What is offered to an empty mailbox with room is sent, if there is a receiver. -/
theorem attempt_of_empty {capacity : Nat} (hroom : 0 < capacity) (listening : Bool)
    (policy : DeliveryPolicy) :
    (Mailbox.mk capacity [] listening).attempt policy =
      if listening then .sent else .disconnected := by
  cases listening with
  | false => exact attempt_eq_disconnected_iff.2 rfl
  | true => exact attempt_eq_sent_iff.2 (accepts_iff.2 ⟨rfl, hroom⟩)

end Mailbox

namespace Mailboxes

@[simp] theorem get?_modify (b : Mailboxes) (n n' : Nat) (f : Mailbox → Mailbox) :
    (b.modify n f).get? n' = if n' = n then (b.get? n').map f else b.get? n' := by
  simp only [get?, modify, List.getElem?_modify]
  by_cases h : n = n'
  · simp [h]
  · simp [h, Ne.symm h]

@[simp] theorem next_modify (b : Mailboxes) (n : Nat) (f : Mailbox → Mailbox) :
    (b.modify n f).next = b.next := by
  simp [next, modify]

@[simp] theorem next_offer (b : Mailboxes) (policy : DeliveryPolicy) (n : Nat) (m : Message) :
    (b.offer policy n m).next = b.next := next_modify ..

theorem get?_add (b : Mailboxes) (capacity n : Nat) :
    (b.add capacity).get? n = if n = b.next then some (.ofCapacity capacity) else b.get? n := by
  unfold get? add next
  rw [List.getElem?_append]
  by_cases hlt : n < b.boxes.length
  · rw [if_pos hlt, if_neg (Nat.ne_of_lt hlt)]
  · rw [if_neg hlt]
    by_cases heq : n = b.boxes.length
    · simp [heq]
    · rw [if_neg heq, List.getElem?_eq_none (by simp; omega), List.getElem?_eq_none (by omega)]

@[simp] theorem next_add (b : Mailboxes) (capacity : Nat) : (b.add capacity).next = b.next + 1 := by
  simp [next, add]

theorem exists_get?_of_lt {b : Mailboxes} {n : Nat} (h : n < b.next) : ∃ box, b.get? n = some box :=
  ⟨b.boxes[n], List.getElem?_eq_getElem h⟩

theorem attempt_of_get? {b : Mailboxes} {n : Nat} {box : Mailbox} (h : b.get? n = some box)
    (policy : DeliveryPolicy) : b.attempt policy n = box.attempt policy := by
  rw [attempt, h, Option.elim_some]

theorem attempt_block_ne_dropped (b : Mailboxes) (n : Nat) : b.attempt .block n ≠ .dropped := by
  cases hbox : b.get? n with
  | none => simp [attempt, hbox]
  | some box => simp [attempt_of_get? hbox, Mailbox.attempt_eq_dropped_iff]

/-- Only who blocks when there is no room has to wait. -/
theorem eq_block_of_waiting (b : Mailboxes) {policy : DeliveryPolicy} {n : Nat}
    (h : b.attempt policy n = .waiting) : policy = .block := by
  cases hbox : b.get? n with
  | none => simp [attempt, hbox] at h
  | some box =>
    rw [attempt_of_get? hbox] at h
    exact (Mailbox.attempt_eq_waiting_iff.1 h).2.2

/-- A connection hears of what it is offered unless its receiver is gone. -/
theorem any_listening_iff (b : Mailboxes) (policy : DeliveryPolicy) (n : Nat) :
    (b.get? n).any (·.listening) = true ↔ b.attempt policy n ≠ .disconnected := by
  cases hbox : b.get? n with
  | none => simp [attempt, hbox]
  | some box => simp [attempt_of_get? hbox, Mailbox.attempt_eq_disconnected_iff]

/-- An offer that is not accepted changes nothing. -/
theorem offer_of_ne_sent {b : Mailboxes} {policy : DeliveryPolicy} {n : Nat}
    (h : b.attempt policy n ≠ .sent) (m : Message) : b.offer policy n m = b := by
  suffices hboxes : b.boxes.modify n (·.offer policy m) = b.boxes by
    simp [offer, modify, hboxes]
  refine List.ext_getElem? fun k => ?_
  rw [List.getElem?_modify]
  by_cases hk : n = k
  · subst hk
    cases hbox : b.boxes[n]? with
    | none => rfl
    | some box =>
      have hbox' : b.get? n = some box := hbox
      rw [attempt_of_get? hbox'] at h
      simp [Mailbox.offer_of_ne_sent h]
  · simp [hk]

end Mailboxes

end FlagFanout
