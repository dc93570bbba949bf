import Tandem.Avatar
import Tandem.Avatar.Grid
import Tandem.Binary32
import Tandem.Command
import Tandem.Command.Ticks
import Tandem.CommandLine
import Tandem.CommandLine.Request
import Tandem.Config
import Tandem.Config.Reading
import Tandem.Config.Writing
import Tandem.DataLog
import Tandem.Decimal.Basic
import Tandem.Decimal.Layout
import Tandem.Decimal.Shortest
import Tandem.Direction
import Tandem.Host
import Tandem.Host.Directory
import Tandem.Host.Path
import Tandem.Json.Basic
import Tandem.Json.Number
import Tandem.Json.Reader
import Tandem.Json.Record
import Tandem.Json.Writer
import Tandem.Main
import Tandem.Pair
import Tandem.Proofs.Avatar.Altitude
import Tandem.Proofs.Avatar.Image
import Tandem.Proofs.Avatar.Whereabouts
import Tandem.Proofs.Binary32.Count
import Tandem.Proofs.Binary32.Nearest
import Tandem.Proofs.Binary32.Parts
import Tandem.Proofs.Binary32.Product
import Tandem.Proofs.Binary32.Sum
import Tandem.Proofs.Decimal.Number
import Tandem.Proofs.Pair.Crossing
import Tandem.Proofs.Pair.Deadlock
import Tandem.Proofs.Pair.Drift
import Tandem.Proofs.Pair.Duet
import Tandem.Proofs.Pair.Floor
import Tandem.Proofs.Pair.Mail
import Tandem.Proofs.Pair.Mirror
import Tandem.Proofs.Pair.Moves
import Tandem.Proofs.Pair.View
import Tandem.Proofs.Run.Advance
import Tandem.Proofs.Run.Aside
import Tandem.Proofs.Run.Burst
import Tandem.Proofs.Run.Bystander
import Tandem.Proofs.Run.Cancellation
import Tandem.Proofs.Run.Career
import Tandem.Proofs.Run.Counters
import Tandem.Proofs.Run.Course
import Tandem.Proofs.Run.Crew
import Tandem.Proofs.Run.CutShort
import Tandem.Proofs.Run.Fate
import Tandem.Proofs.Run.Flag
import Tandem.Proofs.Run.Frame
import Tandem.Proofs.Run.Fresh
import Tandem.Proofs.Run.Haste
import Tandem.Proofs.Run.Highlight
import Tandem.Proofs.Run.InPlace
import Tandem.Proofs.Run.Kin
import Tandem.Proofs.Run.Lifecycle
import Tandem.Proofs.Run.Loan
import Tandem.Proofs.Run.LogLines
import Tandem.Proofs.Run.Logbook
import Tandem.Proofs.Run.Mirroring
import Tandem.Proofs.Run.Mortality
import Tandem.Proofs.Run.Passage
import Tandem.Proofs.Run.Remaining
import Tandem.Proofs.Run.Repetitions
import Tandem.Proofs.Run.Settled
import Tandem.Proofs.Run.Side
import Tandem.Proofs.Run.Spacing
import Tandem.Proofs.Run.Step
import Tandem.Proofs.Run.Tally
import Tandem.Proofs.Run.Ticks
import Tandem.Proofs.Run.Turnover
import Tandem.Proofs.Run.Twins
import Tandem.Proofs.Run.Utterances
import Tandem.Proofs.Script.Accounting
import Tandem.Proofs.Script.Alike
import Tandem.Proofs.Script.Blocks
import Tandem.Proofs.Script.Counts
import Tandem.Proofs.Script.Drawing
import Tandem.Proofs.Script.Editing
import Tandem.Proofs.Script.Expansion
import Tandem.Proofs.Script.Layout
import Tandem.Proofs.Script.Lines
import Tandem.Proofs.Script.Marks
import Tandem.Proofs.Script.Names
import Tandem.Proofs.Script.Places
import Tandem.Proofs.Script.RoundTrip
import Tandem.Proofs.Script.Running
import Tandem.Proofs.Script.Skeleton
import Tandem.Proofs.Script.Waits
import Tandem.Proofs.Session.Refusal
import Tandem.Proofs.Simulation.Chronicle
import Tandem.Proofs.Simulation.Diary
import Tandem.Proofs.Simulation.Finished
import Tandem.Proofs.Simulation.Frames
import Tandem.Proofs.Simulation.Mirror
import Tandem.Proofs.Simulation.Outcome
import Tandem.Proofs.Simulation.Trace
import Tandem.Proofs.Simulation.Traffic
import Tandem.Proofs.Sync.Consistent
import Tandem.Proofs.Sync.Policy
import Tandem.Proofs.Sync.Quantum
import Tandem.Proofs.Sync.Timeout
import Tandem.Proofs.Text.Lines
import Tandem.Proofs.Wire.Decoding
import Tandem.Proofs.Wire.Safe
import Tandem.Run.Event
import Tandem.Run.EventLog
import Tandem.Run.Executor
import Tandem.Run.Turn
import Tandem.Run.Walk
import Tandem.Run.Window
import Tandem.Script.Basic
import Tandem.Script.Edit
import Tandem.Script.Line
import Tandem.Script.Omission
import Tandem.Script.Randomize
import Tandem.Script.Reading
import Tandem.Script.Store
import Tandem.Script.Writing
import Tandem.Session
import Tandem.Simulation
import Tandem.Sync
import Tandem.Sync.Policy
import Tandem.Sync.Timings
import Tandem.Text.Blank
import Tandem.Text.DecimalDigit
import Tandem.Text.Hidden
import Tandem.Text.Lines
import Tandem.Text.Quoted
import Tandem.Text.Stamp
import Tandem.Vocabulary
import Tandem.Wire
import Tandem.Wire.Link
