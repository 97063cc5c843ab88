import LogTopology.Bridge.Channel
import LogTopology.Bridge.Demand
import LogTopology.Bridge.Directive
import LogTopology.Bridge.Filter
import LogTopology.Bridge.Message
import LogTopology.Bridge.Verbosity
import LogTopology.Build
import LogTopology.ByteSize
import LogTopology.Calendar.Date
import LogTopology.Calendar.Moment
import LogTopology.Calendar.Text
import LogTopology.Console.Output
import LogTopology.Console.Strip
import LogTopology.Decimal.Binary64
import LogTopology.Decimal.Notation
import LogTopology.Decimal.Numeral
import LogTopology.Decimal.Padded
import LogTopology.Decimal.Shortest
import LogTopology.Disk.Basic
import LogTopology.Disk.Writer
import LogTopology.Document.Datetime
import LogTopology.Document.Decode
import LogTopology.Document.Field
import LogTopology.Document.MarkedDate
import LogTopology.Document.Outline
import LogTopology.Document.Scalar
import LogTopology.Document.Section
import LogTopology.Document.Statement
import LogTopology.Document.TextLiteral
import LogTopology.Document.Value
import LogTopology.Document.Writer
import LogTopology.Engine.Backend
import LogTopology.Engine.Basic
import LogTopology.Engine.Bridged
import LogTopology.Engine.Delivery
import LogTopology.Engine.Documents
import LogTopology.Engine.Handles
import LogTopology.Engine.Session
import LogTopology.Event
import LogTopology.Journal
import LogTopology.Level
import LogTopology.LogFile.Daily
import LogTopology.LogFile.Name
import LogTopology.LogFile.Rotating
import LogTopology.Logger.Declared
import LogTopology.Mode
import LogTopology.Overlay
import LogTopology.PathText
import LogTopology.Pattern.Line
import LogTopology.Pattern.Table
import LogTopology.Plan
import LogTopology.Pool.Queue
import LogTopology.Pool.Table
import LogTopology.Record
import LogTopology.Roster
import LogTopology.SetupError
import LogTopology.Sink.Declaration
import LogTopology.Sink.Fan
import LogTopology.Sink.Kind
import LogTopology.Sink.Leaf
import LogTopology.Sink.Resolve
import LogTopology.Sink.Walk
import LogTopology.Syslog
import LogTopology.Template
import LogTopology.Text.Alphanumeric
import LogTopology.Text.Blank
import LogTopology.Text.CodePoint
import LogTopology.Text.Expression
import LogTopology.Text.Quoted
import LogTopology.Text.Utf8
import LogTopology.Text.Visible
import LogTopology.Proofs.Plan.Calls
import LogTopology.Proofs.Sink.PostOrder
import LogTopology.Proofs.Sink.Walk
import LogTopology.Proofs.Setup
import LogTopology.Proofs.Sink.Resolution
import LogTopology.Proofs.Disk.Places
import LogTopology.Proofs.Disk.Items
import LogTopology.Proofs.Disk.Writer
import LogTopology.Proofs.Disk.Paths
import LogTopology.Proofs.LogFile.Name
import LogTopology.Proofs.LogFile.Copies
import LogTopology.Proofs.LogFile.Rotation
import LogTopology.Proofs.LogFile.Conservation
import LogTopology.Proofs.Document.Field
import LogTopology.Proofs.Pattern.Table
import LogTopology.Proofs.Logger.Declared
import LogTopology.Proofs.Build.Document
import LogTopology.Proofs.Document.Section
import LogTopology.Proofs.Overlay.Entries
import LogTopology.Proofs.Overlay.Merge
import LogTopology.Proofs.Document.Reading
import LogTopology.Proofs.Pattern.Reading
import LogTopology.Proofs.Build.FailStop
import LogTopology.Proofs.Pool.Service
import LogTopology.Proofs.Sink.Ways
import LogTopology.Proofs.Template.Reading
import LogTopology.Proofs.Roster.Calls
import LogTopology.Proofs.Roster.History
import LogTopology.Proofs.Calendar.NextChange
import LogTopology.Proofs.LogFile.Dates
import LogTopology.Proofs.LogFile.Daily
import LogTopology.Proofs.Engine.Alike
import LogTopology.Proofs.Engine.Calls
import LogTopology.Proofs.Engine.Traffic
import LogTopology.Proofs.Engine.Schedule
import LogTopology.Proofs.Build.Arguments
import LogTopology.Proofs.Engine.Stages
import LogTopology.Proofs.Engine.Registering
import LogTopology.Proofs.Build.Registry
import LogTopology.Proofs.Disk.Whole
import LogTopology.Proofs.Engine.Barrier
import LogTopology.Proofs.Engine.Saving
import LogTopology.Proofs.Document.Layers
import LogTopology.Proofs.Overlay.Layers
import LogTopology.Proofs.Overlay.Stops
import LogTopology.Proofs.Overlay.Laws
import LogTopology.Proofs.Plan.Trials
import LogTopology.Proofs.Sink.Faults
import LogTopology.Proofs.Sink.Cycles
import LogTopology.Proofs.Sink.Descent
import LogTopology.Proofs.Sink.Recursion
import LogTopology.Proofs.Template.Cuts
import LogTopology.Proofs.Template.Escaping
import LogTopology.Proofs.Pattern.Marks
import LogTopology.Proofs.Console.Slices
import LogTopology.Proofs.Roster.Overlaid
import LogTopology.Proofs.ByteSize.Reading
import LogTopology.Proofs.ByteSize.Canonical
import LogTopology.Proofs.Engine.Graph
import LogTopology.Proofs.Build.Graph
import LogTopology.Proofs.Disk.Trees
import LogTopology.Proofs.LogFile.Shifting
import LogTopology.Proofs.LogFile.Apart
import LogTopology.Proofs.LogFile.Barred
import LogTopology.Proofs.LogFile.FailedRotation
import LogTopology.Proofs.Bridge.Message
import LogTopology.Proofs.Pattern.Listing
import LogTopology.Proofs.Engine.Loggers
import LogTopology.Proofs.Bridge.Forwarding
import LogTopology.Proofs.Sink.Flushing
import LogTopology.Proofs.Engine.Flushing
