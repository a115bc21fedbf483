import FlagFanout.Server

/-!
# A server over a living registry

A deployment is a registry with a server that follows its membership events. Events wait until the
server takes them, so they are applied against a registry that may have moved on; after a lag the
server first brings itself in line with the whole registry and then goes on with the events that
were retained.
-/

namespace FlagFanout

/-- A registry and a server over it. -/
structure Deployment where
  registry : Registry
  serving : Serving

namespace Deployment

/-- A server over a registry. It listens before it looks at the projects, so it misses no event. -/
def start (registry : Registry) (config : StreamConfig) (fleet : Fleet) : Deployment :=
  let (receiver, registry) := registry.listen
  ⟨registry, .start registry.projects config receiver fleet⟩

/-- The server stops listening, and the events that wait for it are lost. -/
def unfollow (d : Deployment) : Deployment :=
  match d.serving.server.receiver with
  | none => d
  | some receiver =>
    { registry := d.registry.withEvents (·.drop receiver)
      serving := { d.serving with server := { d.serving.server with receiver := none } } }

/-- The server takes one event. `none` if there is none, or it follows no events any more. -/
def step? (d : Deployment) : Option Deployment :=
  match d.serving.server.receiver with
  | none => none
  | some receiver =>
    let (heard, registry) := d.registry.hear receiver
    match heard with
    | .event e => some ⟨registry, d.serving.apply registry.projects e⟩
    | .lagged _ => some ⟨registry, d.serving.reconcile registry.projects⟩
    | .empty => none
    | .ended => some { d with registry }.unfollow

/-- At most `n` events taken. -/
def run (d : Deployment) : Nat → Deployment
  | 0 => d
  | n + 1 =>
    match d.step? with
    | none => d
    | some next => next.run n

/-- All events taken that wait: besides each of them a lag and the end count as one. -/
def follow (d : Deployment) : Deployment :=
  d.run ((d.registry.events.elim 0 (·.sent.length)) + 2)

/-- The server closed, which first stops listening. -/
def close (d : Deployment) : Deployment :=
  { d.unfollow with serving := d.unfollow.serving.close }

end Deployment

end FlagFanout
