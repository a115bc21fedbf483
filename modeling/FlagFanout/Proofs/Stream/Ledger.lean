import FlagFanout.Proofs.Stream.Run

/-!
# The ledger of a connection

What a log says of one connection: the channel of which it is a member, the state with which it
was greeted, the messages that its channel produced since then, and the offers that were made to
it. The ledger is read off the log alone, by one pass over its events.
-/

namespace FlagFanout

/-- What a log says of one connection. -/
structure Ledger where
  /-- Where it joined and neither left nor was found gone. -/
  place : Option Place
  /-- The state of its channel at the moment when it joined. -/
  greeting : Option Message
  /-- What its channel produced while it was a member, in order. -/
  due : List Message
  /-- What it was offered, in order, each with its mailbox at that moment. -/
  offers : List (Message × Mailbox)

namespace Ledger

/-- The ledger of a connection of which nothing was heard. -/
def blank : Ledger := ⟨none, none, [], []⟩

/-- The ledger after one more event. -/
def see (id : ConnectionId) (l : Ledger) : Event → Ledger
  | .joined id' place m =>
    if id' = id then { l with place := some place, greeting := some m } else l
  | .closed id' place => if id' = id ∧ l.place = some place then { l with place := none } else l
  | .produced place m => if l.place = some place then { l with due := l.due ++ [m] } else l
  | .offered id' m box =>
    if id' = id then
      { l with
        offers := l.offers ++ [(m, box)]
        place := if box.listening then l.place else none }
    else l
  | .opened _ _ => l
  | .taken _ _ => l
  | .effect _ => l

end Ledger

/-- What a log says of a connection. -/
def ledger (id : ConnectionId) (log : List Event) : Ledger := log.foldl (Ledger.see id) .blank

section Ledger

variable (id : ConnectionId) (log : List Event)

@[simp] theorem ledger_nil : ledger id [] = .blank := rfl

theorem ledger_append (events : List Event) :
    ledger id (log ++ events) = events.foldl (Ledger.see id) (ledger id log) :=
  List.foldl_append

@[simp] theorem foldl_see_effects (l : Ledger) (effects : List Effect) :
    (effects.map Event.effect).foldl (Ledger.see id) l = l := by
  induction effects generalizing l with
  | nil => rfl
  | cons f rest ih => exact ih l

@[simp] theorem ledger_append_effects (effects : List Effect) :
    ledger id (log ++ effects.map .effect) = ledger id log := by
  rw [ledger_append, foldl_see_effects]

@[simp] theorem ledger_append_nil : ledger id (log ++ []) = ledger id log := by
  rw [List.append_nil]

@[simp] theorem ledger_opened (c : Connection) (context : Option Context) :
    ledger id (log ++ [.opened c context]) = ledger id log := ledger_append ..

@[simp] theorem ledger_taken (id' : ConnectionId) (m : Message) :
    ledger id (log ++ [.taken id' m]) = ledger id log := ledger_append ..

theorem ledger_joined (id' : ConnectionId) (place : Place) (m : Message)
    (effects : List Effect) :
    ledger id (log ++ .joined id' place m :: effects.map .effect) =
      if id' = id then { ledger id log with place := some place, greeting := some m }
      else ledger id log := by
  rw [ledger_append, List.foldl_cons, foldl_see_effects]
  rfl

theorem ledger_closed (id' : ConnectionId) (place : Place) (effects : List Effect) :
    ledger id (log ++ .closed id' place :: effects.map .effect) =
      if id' = id ∧ (ledger id log).place = some place then { ledger id log with place := none }
      else ledger id log := by
  rw [ledger_append, List.foldl_cons, foldl_see_effects]
  rfl

theorem ledger_produced (place : Place) (m : Message) :
    ledger id (log ++ [.produced place m]) =
      if (ledger id log).place = some place then
        { ledger id log with due := (ledger id log).due ++ [m] }
      else ledger id log := by
  rw [ledger_append]
  rfl

theorem ledger_offered (id' : ConnectionId) (m : Message) (box : Mailbox)
    (effects : List Effect) :
    ledger id (log ++ ([.offered id' m box] ++ effects.map .effect)) =
      if id' = id then
        { ledger id log with
          offers := (ledger id log).offers ++ [(m, box)]
          place := if box.listening then (ledger id log).place else none }
      else ledger id log := by
  rw [ledger_append, List.foldl_append, foldl_see_effects]
  rfl

end Ledger

/-- The messages that were placed in the mailbox of a connection, in order. -/
def placed (id : ConnectionId) (log : List Event) : List Message :=
  log.filterMap fun
    | .effect (.placed id' m) => if id' = id then some m else none
    | _ => none

/-- The messages that a connection took out of its mailbox, in order. -/
def taken (id : ConnectionId) (log : List Event) : List Message :=
  log.filterMap fun
    | .taken id' m => if id' = id then some m else none
    | _ => none

section Mail

variable (id : ConnectionId) (log events : List Event)

@[simp] theorem placed_append : placed id (log ++ events) = placed id log ++ placed id events :=
  List.filterMap_append

@[simp] theorem taken_append : taken id (log ++ events) = taken id log ++ taken id events :=
  List.filterMap_append

@[simp] theorem placed_nil : placed id [] = [] := rfl

@[simp] theorem taken_nil : taken id [] = [] := rfl

@[simp] theorem placed_joined (id' : ConnectionId) (place : Place) (m : Message) :
    placed id (.joined id' place m :: events) = placed id events := rfl

@[simp] theorem placed_offered (id' : ConnectionId) (m : Message) (box : Option Mailbox) :
    placed id ((box.map (Event.offered id' m ·)).toList ++ events) = placed id events := by
  cases box <;> rfl

@[simp] theorem placed_trace (id' : ConnectionId) (m : Message) (out : Attempt) :
    placed id ((out.trace id' m).map .effect) = if id' = id ∧ out = .sent then [m] else [] := by
  cases out <;> by_cases h : id' = id <;> simp [placed, Attempt.trace, h]

@[simp] theorem placed_report (selector : Selector) (t : Tally) :
    placed id ((Worker.report selector t).map .effect) = [] := by
  unfold Worker.report
  split <;> split <;> rfl

/-- A connection that joins is sent what it is greeted with. -/
theorem placed_greeting (id' : ConnectionId) (selector : Selector) (m : Message) (out : Attempt) :
    placed id ((out.trace id' m ++ Worker.report selector out.tally ++
      [Effect.metric (.opened selector)]).map .effect) =
        if id' = id ∧ out = .sent then [m] else [] := by
  rw [List.map_append, List.map_append, placed_append, placed_append, placed_trace, placed_report,
    List.append_nil]
  exact List.append_nil _

@[simp] theorem placed_closings (pruned : List (Place × Nat)) :
    placed id ((Worker.closings pruned).map .effect) = [] := by
  refine List.filterMap_eq_nil_iff.2 fun ev hev => ?_
  obtain ⟨f, hf, rfl⟩ := List.mem_map.1 hev
  obtain ⟨e, -, hf⟩ := List.mem_flatMap.1 hf
  rw [List.eq_of_mem_replicate hf]

@[simp] theorem taken_effects (effects : List Effect) :
    taken id (effects.map .effect) = [] := by
  induction effects with
  | nil => rfl
  | cons f rest ih => exact ih

end Mail

end FlagFanout
