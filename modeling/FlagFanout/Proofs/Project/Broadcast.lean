import FlagFanout.Project.Broadcast

/-!
# What waits for a receiver of a broadcast

A receiver is a place in the list of all events, and what it has still to hear is the rest of the
list (`Broadcast.Awaits`). Sending adds to the end of it; hearing takes its first event, or drops a
front part of it after a lag (`Broadcast.Awaits.hear`); nothing that other receivers do touches it.
-/

namespace FlagFanout.Broadcast

variable {α : Type}

section Ended

variable (b : Broadcast α)

theorem ended_send (a : α) : (b.send a).2.ended = b.ended := by
  unfold send
  split <;> rfl

theorem ended_hear (receiver : Nat) : (b.hear receiver).2.ended = b.ended := by
  unfold hear
  split
  · split
    · rfl
    · split <;> rfl
  · rfl

end Ended

/-- A receiver exists and has some events still to hear, missed ones included. -/
structure Awaits (b : Broadcast α) (receiver : Nat) (events : List α) : Prop where
  alive : b.ended = false
  exists_place : ∃ place ≤ b.sent.length,
    b.places[receiver]? = some (some place) ∧ events = b.sent.drop place

variable {b : Broadcast α} {receiver : Nat} {events : List α}

/-- A new receiver has nothing to hear yet. -/
theorem awaits_listen (b : Broadcast α) (halive : b.ended = false) :
    b.listen.Awaits b.nextReceiver [] := by
  refine ⟨halive, b.sent.length, Nat.le_refl _, ?_, (List.drop_length ..).symm⟩
  simp [listen, nextReceiver]

theorem receiverCount_pos {place : Nat} (h : b.places[receiver]? = some (some place)) :
    0 < b.receiverCount :=
  List.countP_pos_iff.2 ⟨some place, List.mem_of_getElem? h, rfl⟩

namespace Awaits

/-- What is sent waits behind the rest. -/
theorem send (h : b.Awaits receiver events) (a : α) :
    (b.send a).2.Awaits receiver (events ++ [a]) := by
  obtain ⟨halive, place, hle, hplace, rfl⟩ := h
  have hcount := receiverCount_pos hplace
  have hsend : (b.send a).2 = { b with sent := b.sent ++ [a] } := by
    simp [Broadcast.send, halive, Nat.pos_iff_ne_zero.1 hcount]
  rw [hsend]
  refine ⟨halive, place, ?_, hplace, ?_⟩
  · rw [List.length_append]
    omega
  · rw [List.drop_append_of_le_length hle]

/-- Another receiver changes nothing. -/
theorem moveTo_of_ne (h : b.Awaits receiver events) {receiver' : Nat} (place' : Option Nat)
    (hne : receiver' ≠ receiver) : (b.moveTo receiver' place').Awaits receiver events := by
  obtain ⟨halive, place, hle, hplace, hevents⟩ := h
  exact ⟨halive, place, hle, (List.getElem?_set_ne hne).trans hplace, hevents⟩

theorem listen (h : b.Awaits receiver events) : b.listen.Awaits receiver events := by
  obtain ⟨halive, place, hle, hplace, hevents⟩ := h
  refine ⟨halive, place, hle, ?_, hevents⟩
  have hlt : receiver < b.places.length := (List.getElem?_eq_some_iff.1 hplace).1
  exact (List.getElem?_append_left hlt).trans hplace

/-- **What a receiver finds**: the first event that waits for it, that it missed some of them, or
nothing if nothing waits. -/
theorem hear (h : b.Awaits receiver events) :
    (∃ a rest, events = a :: rest ∧ (b.hear receiver).1 = .event a ∧
      (b.hear receiver).2.Awaits receiver rest) ∨
    (∃ missed rest, rest <:+ events ∧ (b.hear receiver).1 = .lagged missed ∧
      (b.hear receiver).2.Awaits receiver rest) ∨
    (events = [] ∧ b.hear receiver = (.empty, b)) := by
  obtain ⟨halive, place, hle, hplace, rfl⟩ := h
  have hlt : receiver < b.places.length := (List.getElem?_eq_some_iff.1 hplace).1
  have hmoved : ∀ place' ≤ b.sent.length,
      (b.moveTo receiver (some place')).Awaits receiver (b.sent.drop place') := fun place' hle' =>
    ⟨halive, place', hle', List.getElem?_set_self hlt, rfl⟩
  by_cases hlag : place < b.forgotten
  · have hfound : b.hear receiver =
        (.lagged (b.forgotten - place), b.moveTo receiver (some b.forgotten)) := by
      simp [Broadcast.hear, hplace, hlag]
    rw [hfound]
    refine .inr (.inl ⟨_, b.sent.drop b.forgotten, ?_, rfl, hmoved _ (Nat.sub_le ..)⟩)
    exact List.drop_suffix_drop_left _ (Nat.le_of_lt hlag)
  · cases hsent : b.sent[place]? with
    | some a =>
      have hfound : b.hear receiver = (.event a, b.moveTo receiver (some (place + 1))) := by
        simp [Broadcast.hear, hplace, hlag, hsent]
      obtain ⟨hplace_lt, rfl⟩ := List.getElem?_eq_some_iff.1 hsent
      rw [hfound]
      exact .inl ⟨_, _, List.drop_eq_getElem_cons hplace_lt, rfl, hmoved _ hplace_lt⟩
    | none =>
      have hfound : b.hear receiver = (.empty, b) := by
        simp [Broadcast.hear, hplace, hlag, hsent, halive]
      exact .inr (.inr ⟨List.drop_eq_nil_iff.2 (List.getElem?_eq_none_iff.1 hsent), hfound⟩)

/-- What another receiver hears changes nothing. -/
theorem hear_of_ne (h : b.Awaits receiver events) {receiver' : Nat} (hne : receiver' ≠ receiver) :
    (b.hear receiver').2.Awaits receiver events := by
  unfold Broadcast.hear
  split
  · split
    · exact h.moveTo_of_ne _ hne
    · split
      · exact h.moveTo_of_ne _ hne
      · exact h
  · exact h

end Awaits

end FlagFanout.Broadcast
