import FlagFanout.Deployment

/-!
# What can be asked of a session

A session is driven by operations on engines, a registry, a server, streams and connections. Things
are known by the names under which a client holds them; every operation has one answer.
-/

namespace FlagFanout.Session

/-- One operation. -/
inductive Op where
  -- Engines.
  | setFlag (engine : String) (flag : Flag)
  | replaceFlags (engine : String) (flags : List Flag)
  | removeFlag (engine key : String)
  | publish (engine : String)
  | fail (engine key : String)
  | restore (engine key : String)
  | evaluate (engine key : String) (context : Option Context)
  | evaluateAll (engine : String) (context : Option Context)
  | keys (engine : String)
  | isReady (engine : String)
  | subscriberCount (engine : String)
  | subscribe (engine subscriber receiver : String)
  | unsubscribe (engine subscriber : String)
  | pollReceiver (receiver : String)
  | dropReceiver (receiver : String)
  -- The registry.
  | addProject (project : Project)
  | removeProject (id : String)
  | replaceEngine (id engine : String)
  | setKeys (id : String) (keys : List String)
  | getProject (id : String)
  | getProjectByKey (key : String)
  | listProjects
  | registrySize
  | watch (watcher : String)
  | pollWatcher (watcher : String)
  | fire (event : MembershipEvent)
  | endEvents
  -- The server.
  | startServer
  | find (id : String) (name : Option String)
  | findByKey (key : String) (name : Option String)
  | projectIds
  | serverStats
  | closeServer
  | isServerClosed
  | dropServer
  -- Streams.
  | spawn (stream project engine : String) (config : Option StreamConfig)
  | closeStream (stream : String)
  | isStreamClosed (stream : String)
  | dropStream (stream : String)
  | isStreamValid (stream : String)
  | canEvaluate (stream key : String)
  | streamStats (stream : String)
  -- Connections.
  | connect (stream connection : String) (selector : Selector) (context : Option Context)
  | disconnect (stream connection : String)
  | dropConnection (connection : String)
  | receive (connection : String)
  | tryReceive (connection : String)
  | drain (connection : String)
  | settle

/-- The answer to an operation. -/
inductive Answer where
  | done
  | yesNo (b : Bool)
  | number (n : Nat)
  | texts (l : List String)
  | evaluation (r : Except FlagError Evaluation)
  | evaluations (r : KeyMap String (Except FlagError Evaluation))
  | polled (p : Poll)
  | heard (h : Heard MembershipEvent)
  | project (p : Option Project)
  /-- The number of projects, and whether the registry broadcasts. -/
  | size (count : Nat) (dynamic : Bool)
  /-- The project of a stream that was found, and the names under which it was held already. -/
  | found (stream : Option (String × List String))
  | serverStats (s : Serving.Stats)
  | streamClosed (closed : Bool)
  | streamStats (project : String) (counters : Counters)
  /-- A connection was opened; contexts are grouped by small numbers, 0 standing for none. -/
  | connected (selector : Selector) (group : Nat)
  /-- There is no room in the queue of commands. -/
  | blocked
  | receipt (r : Receipt)
  | receipts (l : List Receipt)
  /-- Something that the operation names does not exist. -/
  | unknown

end FlagFanout.Session
