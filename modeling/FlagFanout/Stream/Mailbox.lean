import FlagFanout.Config.Policy
import FlagFanout.Payload

/-!
# Mailboxes

A connection receives messages through a mailbox: a queue with limited room, first in, first out.
`Mailbox.offer` is one attempt to deliver a message; what happens when there is no room is up to
the delivery policy.
-/

namespace FlagFanout

/-- The messages that wait for a connection to take them. -/
structure Mailbox where
  capacity : Nat
  messages : List Message
  /-- The receiving end exists. -/
  listening : Bool
  deriving DecidableEq

/-- What becomes of one attempt to deliver a message. -/
inductive Attempt where
  | sent
  /-- There was no room and the message was skipped. -/
  | dropped
  /-- The receiving end is gone. -/
  | disconnected
  /-- There is no room and the worker waits. -/
  | waiting
  deriving DecidableEq, Repr

namespace Mailbox

/-- An empty mailbox. -/
def ofCapacity (capacity : Nat) : Mailbox := ⟨capacity, [], true⟩

/-- Whether there is no room. -/
def isFull (b : Mailbox) : Bool := b.capacity ≤ b.messages.length

/-- The mailbox with a message behind the others. -/
def push (b : Mailbox) (m : Message) : Mailbox := { b with messages := b.messages ++ [m] }

/-- What becomes of a message that is offered. -/
def attempt (policy : DeliveryPolicy) (b : Mailbox) : Attempt :=
  if !b.listening then .disconnected
  else if b.isFull then
    match policy with
    | .dropNewest => .dropped
    | .block => .waiting
  else .sent

/-- The mailbox after a message was offered. -/
def offer (policy : DeliveryPolicy) (b : Mailbox) (m : Message) : Mailbox :=
  if b.attempt policy = .sent then b.push m else b

end Mailbox

/-- The mailboxes of the connections of a stream, in the order in which they were created. -/
structure Mailboxes where
  boxes : List Mailbox
  deriving DecidableEq, Inhabited

namespace Mailboxes

/-- The mailbox of the connection with a number. -/
def get? (b : Mailboxes) (number : Nat) : Option Mailbox := b.boxes[number]?

/-- The number of the next connection. -/
def next (b : Mailboxes) : Nat := b.boxes.length

/-- The mailboxes with one for a new connection. -/
def add (b : Mailboxes) (capacity : Nat) : Mailboxes :=
  ⟨b.boxes ++ [Mailbox.ofCapacity capacity]⟩

/-- The mailboxes with one changed. -/
def modify (b : Mailboxes) (number : Nat) (f : Mailbox → Mailbox) : Mailboxes :=
  ⟨b.boxes.modify number f⟩

/-- What becomes of a message offered to a connection; one that never existed is gone. -/
def attempt (b : Mailboxes) (policy : DeliveryPolicy) (number : Nat) : Attempt :=
  (b.get? number).elim .disconnected (·.attempt policy)

/-- The mailboxes after a message was offered to a connection. -/
def offer (b : Mailboxes) (policy : DeliveryPolicy) (number : Nat) (m : Message) : Mailboxes :=
  b.modify number (·.offer policy m)

end Mailboxes

end FlagFanout
