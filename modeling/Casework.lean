import Casework.Case.Basic
import Casework.Case.Changes
import Casework.Command.Arguments
import Casework.Command.Identifier
import Casework.Command.Run
import Casework.Decimal.Binary64
import Casework.Decimal.Layout
import Casework.Decimal.Reading
import Casework.Decimal.Shortest
import Casework.Definition.Basic
import Casework.Definition.Loader
import Casework.Definition.Transition
import Casework.Definition.Validation
import Casework.Error
import Casework.Execution.Append
import Casework.Execution.Basic
import Casework.Execution.Host
import Casework.Execution.Settle
import Casework.Execution.Status
import Casework.Execution.Underway
import Casework.Files.Tree
import Casework.HumanInput.Attend
import Casework.HumanInput.Console
import Casework.HumanInput.Handler
import Casework.HumanInput.Request
import Casework.Journal.Entry
import Casework.Journal.Log
import Casework.Journal.Store
import Casework.Json.Decoder
import Casework.Json.Fault
import Casework.Json.Reader
import Casework.Json.Value
import Casework.Json.Writer
import Casework.Main
import Casework.Metric
import Casework.Pattern.Escape
import Casework.Pattern.Reader
import Casework.Pattern.Sets
import Casework.Pattern.Shape
import Casework.Proofs.Definition.Soundness
import Casework.Proofs.Execution.Approval
import Casework.Proofs.Execution.Queue
import Casework.Proofs.Execution.Steps
import Casework.Proofs.Execution.World
import Casework.Proofs.Journal.Keeping
import Casework.Proofs.Journal.Recall
import Casework.Proofs.Step.Visits
import Casework.Proofs.Walk.Basic
import Casework.Proofs.Walk.Session
import Casework.Proofs.Walk.Simulation
import Casework.Service.Basic
import Casework.Settings.Basic
import Casework.Settings.LogFilter
import Casework.Settings.Sources
import Casework.Signal.Basic
import Casework.Signal.Inbox
import Casework.Step.Config
import Casework.Step.Context
import Casework.Step.Registry
import Casework.Step.Visit
import Casework.Table
import Casework.Text.Blank
import Casework.Text.Digits
import Casework.Text.Letters
import Casework.Text.Lines
import Casework.Text.Paint
import Casework.Text.Quoted
import Casework.Text.Ranges
import Casework.Text.Unseen
import Casework.Time.Calendar
import Casework.Time.Instant
import Casework.Time.Stamp
import Casework.Yaml.Conform
import Casework.Yaml.Core
import Casework.Yaml.Cursor
import Casework.Yaml.Document
import Casework.Yaml.Node
import Casework.Yaml.Scalar
import Casework.Yaml.Tag
import Casework.Yaml.Token
import Casework.Proofs.Replay.Discipline
import Casework.Proofs.Execution.Writing
import Casework.Proofs.Execution.Core
import Casework.Proofs.Replay.Heads
import Casework.Proofs.Replay.Shadow
import Casework.Proofs.Replay.Story
import Casework.Proofs.Replay.Course
import Casework.Proofs.Replay.Finished
import Casework.Proofs.Execution.Task
import Casework.Proofs.Execution.Underway
import Casework.Proofs.Execution.Trace
import Casework.Proofs.Replay.Remainder
import Casework.Proofs.Case.Chronicle
import Casework.Proofs.Case.Question
import Casework.Proofs.Service.Resumption
import Casework.Proofs.Signal.Conservation
import Casework.Proofs.Signal.Isolation
import Casework.Proofs.Signal.Waiting
import Casework.Proofs.Journal.Contents
import Casework.Proofs.Service.Operations
import Casework.Proofs.Service.Starts
import Casework.Proofs.Execution.Finality
import Casework.Proofs.Service.Registry
import Casework.Proofs.Service.Sweep
import Casework.Proofs.Replay.Failure
import Casework.Proofs.Case.History
import Casework.Proofs.Execution.Agreement
import Casework.Proofs.Files.Opening
import Casework.Proofs.Journal.Lines
import Casework.Proofs.Journal.Refinement
import Casework.Proofs.Json.Extension
import Casework.Proofs.Journal.Unended
import Casework.Proofs.Execution.Locality
import Casework.Proofs.Service.Separation
import Casework.Proofs.HumanInput.Attending
import Casework.Proofs.HumanInput.Answers
import Casework.Proofs.HumanInput.Lateness
import Casework.Proofs.Text.Digits
import Casework.Proofs.Time.Calendar
import Casework.Proofs.Time.Stamps
import Casework.Proofs.Json.Readback
import Casework.Proofs.Json.Canonical
import Casework.Proofs.Json.Records
import Casework.Proofs.Json.RoundTrips
import Casework.Proofs.Json.Documents
import Casework.Proofs.Definition.Choice
import Casework.Proofs.Definition.Faults
import Casework.Proofs.Definition.Loading
import Casework.Proofs.Execution.Limit
import Casework.Proofs.Execution.Ending
import Casework.Proofs.Signal.Deadline
import Casework.Proofs.Text.Blank
import Casework.Proofs.HumanInput.Resolution
import Casework.Proofs.HumanInput.Terminal
import Casework.Proofs.Journal.Damage
import Casework.Proofs.Files.Below
import Casework.Proofs.Definition.Containment
import Casework.Proofs.Definition.Spellings
import Casework.Proofs.Case.Frame
