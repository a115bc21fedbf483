import FlagFanout.Stream.Worker

/-!
# Lines of metrics

A report to the metrics as one line of text: what happened, how often if that is a count, and the
labels of the stream and the selector.
-/

namespace FlagFanout.Metric

/-- What happened. -/
def event : Metric → String
  | opened _ => "opened"
  | closed _ => "closed"
  | sent n _ => "sent " ++ String.ofList (Nat.toDigits 10 n)
  | dropped n _ => "dropped " ++ String.ofList (Nat.toDigits 10 n)

/-- The selector that is concerned. -/
def selector : Metric → Selector
  | opened s => s
  | closed s => s
  | sent _ s => s
  | dropped _ s => s

/-- The line of a report from a stream of the given project and server type. -/
def line (project serverType : String) (m : Metric) : String :=
  m.event ++ " " ++ project ++ " " ++ serverType ++ " " ++ m.selector.key

end FlagFanout.Metric
