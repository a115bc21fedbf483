import FlagFanout.Stream

/-!
# Engines and the streams that run on them

A fleet holds engines by name and every stream that was ever started, each under its serial
number. Two names stand for two engines, whatever flags they hold; an engine that nobody configured
is not ready.

A stream that nobody holds any more is closed (`Fleet.closeUnheld`); the fleet still keeps it,
because its connections may have messages left to take.
-/

namespace FlagFanout

/-- Engines by name, and all streams in the order of their serial numbers. -/
structure Fleet where
  engines : KeyMap String Engine
  streams : List Stream
  /-- The hash by which streams group contexts. -/
  digest : List UInt8 → UInt64

namespace Fleet

/-! ## Engines -/

/-- The engine of a name. -/
def engine (f : Fleet) (name : String) : Engine :=
  (f.engines.get? name).getD (.ofStore .unconfigured)

/-- The fleet with an engine written. -/
def setEngine (f : Fleet) (name : String) (e : Engine) : Fleet :=
  { f with engines := f.engines.insert name e }

/-! ## Streams -/

/-- The stream of a serial number. -/
def stream? (f : Fleet) (serial : Nat) : Option Stream := f.streams[serial]?

/-- The fleet with a stream written at its serial number. -/
def setStream (f : Fleet) (s : Stream) : Fleet :=
  { f with streams := f.streams.set s.serial s }

/-- The serial number of the next stream. -/
def nextSerial (f : Fleet) : Nat := f.streams.length

/-- Starts a stream for a project; it has the serial number `nextSerial`. -/
def spawn (f : Fleet) (project engineName : String) (config : StreamConfig) : Fleet :=
  let (s, e) :=
    Stream.start f.nextSerial project engineName config f.digest (f.engine engineName)
  { f.setEngine engineName e with streams := f.streams ++ [s] }

/-- Closes a stream. -/
def close (f : Fleet) (serial : Nat) : Fleet :=
  match f.stream? serial with
  | none => f
  | some s =>
    let (s, e) := s.close (f.engine s.engine)
    (f.setStream s).setEngine s.engine e

/-- Closes the streams of a list of serial numbers. -/
def closeAll (f : Fleet) (serials : List Nat) : Fleet := serials.foldl close f

/-- Closes every stream that is not held. -/
def closeUnheld (f : Fleet) (held : List Nat) : Fleet :=
  f.closeAll ((List.range f.streams.length).filter fun n => !held.contains n)

/-! ## Workers -/

/-- Runs the worker of a stream until it stands still. -/
def settleStream (f : Fleet) (serial : Nat) : Fleet × List Effect :=
  match f.stream? serial with
  | none => (f, [])
  | some s =>
    let last := Stream.settle (f.engine s.engine) s
    ((f.setStream last.stream).setEngine s.engine last.engine, last.effects)

/-- Runs the workers of streams, one after the other, and lists what each did. -/
def settleStreams (f : Fleet) : List Nat → Fleet × List (Nat × List Effect)
  | [] => (f, [])
  | n :: rest =>
    let (f, effects) := f.settleStream n
    let (f, more) := f.settleStreams rest
    (f, (n, effects) :: more)

/-- Runs every worker until it stands still. -/
def settle (f : Fleet) : Fleet × List (Nat × List Effect) :=
  f.settleStreams (List.range f.streams.length)

end Fleet

end FlagFanout
