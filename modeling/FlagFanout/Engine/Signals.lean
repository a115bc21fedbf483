/-!
# Change signals

An engine tells its subscribers that its configuration changed. A subscription is a feed with room
for one signal: a burst of changes that nobody took yet stays one signal. The engine holds the
sending end of a feed until the subscriber unsubscribes or subscribes again, or until it finds that
the receiving end is gone; a receiver may still take a signal that was pending then.
-/

namespace FlagFanout

/-- Who subscribes: a client by name, or a stream by its serial number. -/
inductive Subscriber where
  | client (name : String)
  | stream (serial : Nat)
  deriving DecidableEq, Repr

/-- One subscription, from the moment it was taken. -/
structure Feed where
  subscriber : Subscriber
  /-- The engine holds the sending end. -/
  subscribed : Bool
  /-- The receiving end exists. -/
  listening : Bool
  /-- A signal waits to be taken. -/
  pending : Bool
  deriving DecidableEq, Repr

/-- What a receiver finds. -/
inductive Poll where
  | signal
  | empty
  | ended
  deriving DecidableEq, Repr

namespace Feed

/-- The feed after its sending end was dropped. -/
def cut (f : Feed) : Feed := { f with subscribed := false }

/-- The feed after a change: a subscriber whose receiver is gone is dropped. -/
def notify (f : Feed) : Feed :=
  if f.subscribed then
    if f.listening then { f with pending := true } else f.cut
  else f

/-- What the receiver finds, and the feed after it looked. -/
def poll (f : Feed) : Poll × Feed :=
  if f.pending then (.signal, { f with pending := false })
  else if f.subscribed then (.empty, f)
  else (.ended, f)

end Feed

/-- Every subscription ever taken; a receiver is known by its place. -/
structure Signals where
  feeds : List Feed
  deriving DecidableEq, Repr, Inhabited

namespace Signals

/-- No subscription. -/
def none : Signals := ⟨[]⟩

/-- The feeds with those of a subscriber changed. -/
def ofSubscriber (s : Signals) (who : Subscriber) (f : Feed → Feed) : Signals :=
  ⟨s.feeds.map fun feed => if feed.subscriber = who then f feed else feed⟩

/-- Nothing more is sent to a subscriber. -/
def unsubscribe (s : Signals) (who : Subscriber) : Signals := s.ofSubscriber who Feed.cut

/-- The place of the receiver that the next subscription gets. -/
def nextReceiver (s : Signals) : Nat := s.feeds.length

/-- A new feed for a subscriber, in place of the one it had; its receiver is at `nextReceiver`. -/
def subscribe (s : Signals) (who : Subscriber) : Signals :=
  ⟨(s.unsubscribe who).feeds ++ [⟨who, true, true, false⟩]⟩

/-- Every subscriber is told of a change. -/
def publish (s : Signals) : Signals := ⟨s.feeds.map Feed.notify⟩

/-- The number of subscribers. -/
def subscriberCount (s : Signals) : Nat := s.feeds.countP (·.subscribed)

/-- What the receiver at a place finds. -/
def poll (s : Signals) (receiver : Nat) : Poll × Signals :=
  match s.feeds[receiver]? with
  | some f => (f.poll.1, ⟨s.feeds.set receiver f.poll.2⟩)
  | .none => (.ended, s)

/-- The receiver at a place is dropped. -/
def dropReceiver (s : Signals) (receiver : Nat) : Signals :=
  ⟨s.feeds.modify receiver fun f => { f with listening := false }⟩

end Signals

end FlagFanout
