import Blockwork.Archive
import Blockwork.Block
import Blockwork.Context
import Blockwork.Datum
import Blockwork.Decimal.Binary
import Blockwork.Decimal.Numeral
import Blockwork.Decimal.Shortest
import Blockwork.Decimal.Written
import Blockwork.Dice
import Blockwork.Document.Block
import Blockwork.Document.Error
import Blockwork.Document.Script
import Blockwork.Document.Value
import Blockwork.Effects
import Blockwork.Exchange.Basic
import Blockwork.Exchange.Datum
import Blockwork.Exchange.Redaction
import Blockwork.Exchange.Report
import Blockwork.Exchange.Vocabulary
import Blockwork.Exchange.World
import Blockwork.Failure
import Blockwork.Handlers
import Blockwork.Interpreter
import Blockwork.Json.Basic
import Blockwork.Json.Node
import Blockwork.Json.Token
import Blockwork.Kinds
import Blockwork.Limits
import Blockwork.Loop
import Blockwork.LoopSlots
import Blockwork.Machine
import Blockwork.Main
import Blockwork.Operation.Arguments
import Blockwork.Operation.Arithmetic
import Blockwork.Operation.Conditions
import Blockwork.Operation.Targets
import Blockwork.Operation.TextWork
import Blockwork.Operation.Variables
import Blockwork.Params
import Blockwork.Playback
import Blockwork.Resolve
import Blockwork.Run
import Blockwork.Scalar
import Blockwork.Scenario
import Blockwork.Script
import Blockwork.Session
import Blockwork.Table
import Blockwork.Template
import Blockwork.Text.Ascii
import Blockwork.Text.Blank
import Blockwork.Text.Case
import Blockwork.Text.CaseData
import Blockwork.Text.Integer
import Blockwork.Text.Search
import Blockwork.Text.Split
import Blockwork.Text.Terminal
import Blockwork.Tick
import Blockwork.Timestamp
import Blockwork.Uuid
import Blockwork.Validation
import Blockwork.Value
import Blockwork.World
import Blockwork.Proofs.Json.Numerals
import Blockwork.Proofs.Json.Scanning
import Blockwork.Proofs.Json.Parsing
import Blockwork.Proofs.Document.Scalars
import Blockwork.Proofs.Document.Scripts
import Blockwork.Proofs.Session.Saving
import Blockwork.Proofs.Session.Storage
import Blockwork.Proofs.Archive
import Blockwork.Proofs.Handlers
import Blockwork.Proofs.Context
import Blockwork.Proofs.Session.Isolation
import Blockwork.Proofs.Machine.Changes
import Blockwork.Proofs.Machine.Deeds
import Blockwork.Proofs.Machine.Iterations
import Blockwork.Proofs.Machine.Loops
import Blockwork.Proofs.Session.Loops
import Blockwork.Proofs.Trace.Notes
import Blockwork.Proofs.Trace.Faithful
import Blockwork.Proofs.Trace.Runs
import Blockwork.Proofs.Session.Commits
import Blockwork.Proofs.Binary
import Blockwork.Proofs.Params
import Blockwork.Proofs.Document.Values
import Blockwork.Proofs.Document.Blocks
import Blockwork.Proofs.Script
import Blockwork.Proofs.Session.Tables
import Blockwork.Proofs.Scene
import Blockwork.Proofs.Machine.Mirrors
import Blockwork.Proofs.Session.Spreading
import Blockwork.Proofs.Document.Persistence
import Blockwork.Proofs.Panic
import Blockwork.Proofs.Machine.Panics
import Blockwork.Proofs.Machine.Bounds
import Blockwork.Proofs.Session.Timetable
import Blockwork.Proofs.Requirements
import Blockwork.Proofs.Grammar
import Blockwork.Proofs.Absence
import Blockwork.Proofs.Machine.Sufficient
import Blockwork.Proofs.Machine.Absences
import Blockwork.Proofs.Document.Decoding
import Blockwork.Proofs.Machine.Behalf
import Blockwork.Proofs.Session.Behalf
import Blockwork.Proofs.Session.Departure
import Blockwork.Proofs.Zeros
import Blockwork.Proofs.Machine.Calls
import Blockwork.Proofs.Machine.Closed
import Blockwork.Proofs.Machine.Nesting
import Blockwork.Proofs.Machine.Heedless
import Blockwork.Proofs.Session.Pending
import Blockwork.Proofs.Session.Nesting
import Blockwork.Proofs.Session.Bindings
import Blockwork.Proofs.Session.Stopped
import Blockwork.Proofs.Machine.Unwinding
import Blockwork.Proofs.Session.Reports
import Blockwork.Proofs.Counting
import Blockwork.Proofs.Machine.InPlace
import Blockwork.Proofs.Machine.Jumps
import Blockwork.Proofs.Machine.Rounds
import Blockwork.Proofs.Machine.LoopLaws
import Blockwork.Proofs.Decimal.Shortest
import Blockwork.Proofs.Decimal.Reading
import Blockwork.Proofs.Text
import Blockwork.Proofs.Names
import Blockwork.Proofs.WholeVariables
import Blockwork.Proofs.Machine.Log
import Blockwork.Proofs.Machine.Callable
import Blockwork.Proofs.Template
import Blockwork.Proofs.Arguments
import Blockwork.Proofs.Authored
import Blockwork.Proofs.Places
import Blockwork.Proofs.Search
import Blockwork.Proofs.Decimal.Signs
import Blockwork.Proofs.Decimal.Order
import Blockwork.Proofs.World
import Blockwork.Proofs.Nearest
import Blockwork.Proofs.Machine.Posting
import Blockwork.Proofs.Session.Posting
import Blockwork.Proofs.Playback.Course
import Blockwork.Proofs.Playback.Relaying
