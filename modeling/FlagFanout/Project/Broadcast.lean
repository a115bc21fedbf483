/-!
# Broadcasting with a bounded backlog

A broadcast sends each event to every receiver. It retains the latest events only, as many as its
capacity; a receiver that fell further behind learns once how many events it missed and goes on
with the oldest one retained. What was sent while nobody listened is lost.

All events are kept here in one list and a receiver is a place in it, so "retained" is a matter of
distance from the end.
-/

namespace FlagFanout

/-- What a receiver of a broadcast finds. -/
inductive Heard (α : Type) where
  | event (a : α)
  /-- So many events were missed. -/
  | lagged (missed : Nat)
  | empty
  | ended
  deriving DecidableEq, Repr

/-- A broadcast: what was sent, and how far each receiver ever made has come. -/
structure Broadcast (α : Type) where
  capacity : Nat
  sent : List α
  /-- Nothing more will be sent. -/
  ended : Bool
  /-- The number of events that each receiver has behind it; `none` once it was dropped. -/
  places : List (Option Nat)
  deriving DecidableEq, Repr

namespace Broadcast

variable {α : Type}

/-- A broadcast that nobody listens to yet. -/
def ofCapacity (capacity : Nat) : Broadcast α := ⟨capacity, [], false, []⟩

/-- The number of receivers. -/
def receiverCount (b : Broadcast α) : Nat := b.places.countP (·.isSome)

/-- The number of the next receiver. -/
def nextReceiver (b : Broadcast α) : Nat := b.places.length

/-- A new receiver, which hears what is sent from now on; it is number `nextReceiver`. -/
def listen (b : Broadcast α) : Broadcast α :=
  { b with places := b.places ++ [some b.sent.length] }

/-- Sends an event, and tells how many receivers there are. -/
def send (b : Broadcast α) (a : α) : Nat × Broadcast α :=
  if b.ended || b.receiverCount = 0 then (0, b)
  else (b.receiverCount, { b with sent := b.sent ++ [a] })

/-- The number of events that are no longer retained. -/
def forgotten (b : Broadcast α) : Nat := b.sent.length - b.capacity

/-- The broadcast with a receiver moved. -/
def moveTo (b : Broadcast α) (receiver : Nat) (place : Option Nat) : Broadcast α :=
  { b with places := b.places.set receiver place }

/-- What a receiver finds. -/
def hear (b : Broadcast α) (receiver : Nat) : Heard α × Broadcast α :=
  match b.places[receiver]? with
  | some (some place) =>
    if place < b.forgotten then
      (.lagged (b.forgotten - place), b.moveTo receiver (some b.forgotten))
    else
      match b.sent[place]? with
      | some a => (.event a, b.moveTo receiver (some (place + 1)))
      | none => (if b.ended then .ended else .empty, b)
  | _ => (.ended, b)

/-- A receiver is dropped. -/
def drop (b : Broadcast α) (receiver : Nat) : Broadcast α := b.moveTo receiver none

/-- The broadcast ends. -/
def finish (b : Broadcast α) : Broadcast α := { b with ended := true }

end Broadcast

end FlagFanout
