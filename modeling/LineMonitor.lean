import LineMonitor.Main
import LineMonitor.Proofs.Instruction.Table
import LineMonitor.Proofs.Memory.Verification
import LineMonitor.Proofs.Memory.Keeping
import LineMonitor.Proofs.Text.UpperCase
import LineMonitor.Proofs.Operand.Grammar
import LineMonitor.Proofs.Operand.RoundTrip
import LineMonitor.Proofs.Operand.Reading
import LineMonitor.Proofs.Line.Step
import LineMonitor.Proofs.Line.Result
import LineMonitor.Proofs.Line.Failure
import LineMonitor.Proofs.Line.Machine
import LineMonitor.Proofs.Console.Line
import LineMonitor.Proofs.Line.Verdict
import LineMonitor.Proofs.Listing.Rows
import LineMonitor.Proofs.Assembly.Listing
import LineMonitor.Proofs.Listing.Typed
import LineMonitor.Proofs.Assembly.Reassembly
import LineMonitor.Proofs.Memory.Protection
import LineMonitor.Proofs.Memory.Replay
import LineMonitor.Proofs.Assembly.Bookkeeping
import LineMonitor.Proofs.Assembly.Repetition
import LineMonitor.Proofs.Console.Escape
import LineMonitor.Proofs.Line.Alone
import LineMonitor.Proofs.Assembly.Composition
import LineMonitor.Proofs.Assembly.Escape
import LineMonitor.Proofs.Memory.Frame
import LineMonitor.Proofs.Assembly.Recording
import LineMonitor.Proofs.Console.Usage
import LineMonitor.Proofs.Line.Transcript
import LineMonitor.Proofs.Assembly.Transcript
import LineMonitor.Proofs.Text.Blank
import LineMonitor.Proofs.Session.Command
import LineMonitor.Proofs.Session.Step
import LineMonitor.Proofs.Session.Run
import LineMonitor.Proofs.Tool.Job
import LineMonitor.Proofs.Tool.Output
import LineMonitor.Proofs.Listing.Tiling
import LineMonitor.Proofs.Session.Listing
import LineMonitor.Proofs.Console.Dialogue
import LineMonitor.Proofs.Text.Utf8
import LineMonitor.Proofs.Tool.Status
import LineMonitor.Proofs.Operand.Branch
import LineMonitor.Proofs.Memory.History
import LineMonitor.Proofs.Text.Pieces
import LineMonitor.Proofs.Listing.Columns
import LineMonitor.Proofs.Console.Layout
import LineMonitor.Proofs.Assembly.Layout
import LineMonitor.Proofs.Text.EitherCase
import LineMonitor.Proofs.Text.Numeral
import LineMonitor.Proofs.Settings.Address
import LineMonitor.Proofs.Session.Address
import LineMonitor.Proofs.Session.Execution
import LineMonitor.Proofs.Memory.Bounds
import LineMonitor.Proofs.Settings.Region
import LineMonitor.Proofs.Settings.Environment
import LineMonitor.Proofs.Operand.Inverse
import LineMonitor.Proofs.Operand.Number
import LineMonitor.Proofs.Console.EscapeCharacter
import LineMonitor.Proofs.Session.Reduction
import LineMonitor.Proofs.Listing.PromptLine
import LineMonitor.Proofs.Assembly.PromptLines
