import FlagFanout.Attribute
import FlagFanout.Config.Environment
import FlagFanout.Config.File
import FlagFanout.Config.Layer
import FlagFanout.Config.Policy
import FlagFanout.Context
import FlagFanout.Context.Fingerprint
import FlagFanout.Context.Text
import FlagFanout.Deployment
import FlagFanout.Engine
import FlagFanout.Engine.Signals
import FlagFanout.Engine.Store
import FlagFanout.Flag.Definition
import FlagFanout.Flag.Evaluation
import FlagFanout.Flag.Operator
import FlagFanout.Flag.Wire
import FlagFanout.FlagError
import FlagFanout.FlagValue
import FlagFanout.Fleet
import FlagFanout.Hash.Fnv
import FlagFanout.Hash.Murmur3
import FlagFanout.Hash.SipHash
import FlagFanout.Json.Printer
import FlagFanout.Json.Reader
import FlagFanout.Json.Record
import FlagFanout.Json.Value
import FlagFanout.KeyMap
import FlagFanout.Number.Binary64
import FlagFanout.Number.Decimal
import FlagFanout.Number.Layout
import FlagFanout.Number.Reading
import FlagFanout.Number.Rounding
import FlagFanout.Number.Shortest
import FlagFanout.Payload
import FlagFanout.Project.Basic
import FlagFanout.Project.Broadcast
import FlagFanout.Project.Registry
import FlagFanout.Proofs.Config.Precedence
import FlagFanout.Proofs.Config.Wording
import FlagFanout.Proofs.Context.Equality
import FlagFanout.Proofs.Context.Fingerprint
import FlagFanout.Proofs.Context.Merging
import FlagFanout.Proofs.Context.Reading
import FlagFanout.Proofs.Deployment.Closing
import FlagFanout.Proofs.Deployment.Convergence
import FlagFanout.Proofs.Deployment.Lifetime
import FlagFanout.Proofs.Engine.Coalescing
import FlagFanout.Proofs.Engine.Configuration
import FlagFanout.Proofs.Engine.Signals
import FlagFanout.Proofs.Engine.Subscribers
import FlagFanout.Proofs.Flag.Attributes
import FlagFanout.Proofs.Flag.Evaluation
import FlagFanout.Proofs.Flag.Rollout
import FlagFanout.Proofs.Json.Messages
import FlagFanout.Proofs.Json.Text
import FlagFanout.Proofs.Json.Wire
import FlagFanout.Proofs.KeyMap
import FlagFanout.Proofs.Number.Layout
import FlagFanout.Proofs.Number.Rounding
import FlagFanout.Proofs.Number.Shortest
import FlagFanout.Proofs.Project.Broadcast
import FlagFanout.Proofs.Project.EventLog
import FlagFanout.Proofs.Project.Registry
import FlagFanout.Proofs.Server.Following
import FlagFanout.Proofs.Server.Hosting
import FlagFanout.Proofs.Server.Inquiries
import FlagFanout.Proofs.Server.Lookup
import FlagFanout.Proofs.Server.Reconciliation
import FlagFanout.Proofs.Server.Surroundings
import FlagFanout.Proofs.Stream.Accounting
import FlagFanout.Proofs.Stream.Bystanders
import FlagFanout.Proofs.Stream.Courses
import FlagFanout.Proofs.Stream.Currency
import FlagFanout.Proofs.Stream.Delivery
import FlagFanout.Proofs.Stream.Departures
import FlagFanout.Proofs.Stream.Difference
import FlagFanout.Proofs.Stream.Grouping
import FlagFanout.Proofs.Stream.Index
import FlagFanout.Proofs.Stream.Joining
import FlagFanout.Proofs.Stream.Leaving
import FlagFanout.Proofs.Stream.Ledger
import FlagFanout.Proofs.Stream.Mail
import FlagFanout.Proofs.Stream.Mailbox
import FlagFanout.Proofs.Stream.Newcomers
import FlagFanout.Proofs.Stream.Orderly
import FlagFanout.Proofs.Stream.Outlook
import FlagFanout.Proofs.Stream.Passing
import FlagFanout.Proofs.Stream.Pruning
import FlagFanout.Proofs.Stream.Pushing
import FlagFanout.Proofs.Stream.Rebuild
import FlagFanout.Proofs.Stream.Refresh
import FlagFanout.Proofs.Stream.Roster
import FlagFanout.Proofs.Stream.Run
import FlagFanout.Proofs.Stream.Shutdown
import FlagFanout.Proofs.Stream.Statistics
import FlagFanout.Proofs.Stream.Tallies
import FlagFanout.Proofs.Stream.VisitingOrder
import FlagFanout.Proofs.Stream.Withdrawal
import FlagFanout.Proofs.Stream.Worker
import FlagFanout.Proofs.Text.Order
import FlagFanout.Selector
import FlagFanout.Server
import FlagFanout.Session.Op
import FlagFanout.Session.Perform
import FlagFanout.Session.State
import FlagFanout.Stream
import FlagFanout.Stream.Channel
import FlagFanout.Stream.Mailbox
import FlagFanout.Stream.MetricLine
import FlagFanout.Stream.Worker
import FlagFanout.Text.Blank
import FlagFanout.Text.Bytes
import FlagFanout.Text.Hidden
import FlagFanout.Text.Quoted
import FlagFanout.Toml.Document
import FlagFanout.Toml.Scalar
import FlagFanout.Toml.Text
import FlagFanout.Toml.Value
