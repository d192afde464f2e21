import RemoteDebugger.Breakpoint
import RemoteDebugger.CommandLine.Arguments
import RemoteDebugger.CommandLine.Files
import RemoteDebugger.CommandLine.Program
import RemoteDebugger.Config
import RemoteDebugger.Console.Address
import RemoteDebugger.Console.Command
import RemoteDebugger.Console.Display
import RemoteDebugger.Console.Prompt
import RemoteDebugger.Directory
import RemoteDebugger.Fault
import RemoteDebugger.Instruction.Branch
import RemoteDebugger.Instruction.Listing
import RemoteDebugger.Link.ClientLink
import RemoteDebugger.Link.ConsoleLink
import RemoteDebugger.Link.Harness
import RemoteDebugger.Link.Network
import RemoteDebugger.Link.SerialLink
import RemoteDebugger.Machine.Basic
import RemoteDebugger.Machine.Memory
import RemoteDebugger.Main
import RemoteDebugger.Processor
import RemoteDebugger.Proofs.Breakpoint.Installed
import RemoteDebugger.Proofs.Breakpoint.Lockstep
import RemoteDebugger.Proofs.Breakpoint.Plain
import RemoteDebugger.Proofs.Breakpoint.StepOver
import RemoteDebugger.Proofs.Console.Address
import RemoteDebugger.Proofs.Directory
import RemoteDebugger.Proofs.Directory.Search
import RemoteDebugger.Proofs.Instruction.Listing
import RemoteDebugger.Proofs.Link.ClientLink
import RemoteDebugger.Proofs.Machine.Bytes
import RemoteDebugger.Proofs.Machine.Cycle
import RemoteDebugger.Proofs.Machine.Delivery
import RemoteDebugger.Proofs.Machine.Slicing
import RemoteDebugger.Proofs.Scheduler.Calls
import RemoteDebugger.Proofs.Scheduler.Frame
import RemoteDebugger.Proofs.Scheduler.Interleaving
import RemoteDebugger.Proofs.Scheduler.Owed
import RemoteDebugger.Proofs.Serial.Argument
import RemoteDebugger.Proofs.Serial.Arrival
import RemoteDebugger.Proofs.Serial.Grammar
import RemoteDebugger.Proofs.Serial.RoundTrip
import RemoteDebugger.Proofs.Serial.Sum
import RemoteDebugger.Proofs.Serial.Write
import RemoteDebugger.Proofs.Session.Action
import RemoteDebugger.Proofs.Session.Answer
import RemoteDebugger.Proofs.Session.Call
import RemoteDebugger.Proofs.Session.Comparison
import RemoteDebugger.Proofs.Session.Continuation
import RemoteDebugger.Proofs.Session.Core
import RemoteDebugger.Proofs.Session.Delivery
import RemoteDebugger.Proofs.Session.Failure
import RemoteDebugger.Proofs.Session.Orderly
import RemoteDebugger.Proofs.Session.Register
import RemoteDebugger.Proofs.Session.Reload
import RemoteDebugger.Proofs.Session.Report
import RemoteDebugger.Proofs.Session.Rest
import RemoteDebugger.Proofs.Session.SingleStep
import RemoteDebugger.Proofs.Session.Slice
import RemoteDebugger.Proofs.Session.Temporary
import RemoteDebugger.Proofs.Session.Transparency
import RemoteDebugger.Proofs.Session.View
import RemoteDebugger.Proofs.Session.Watchpoint
import RemoteDebugger.Proofs.Symbol.Cursor
import RemoteDebugger.Proofs.Symbol.Ending
import RemoteDebugger.Proofs.Symbol.Entries
import RemoteDebugger.Proofs.Symbol.Queries
import RemoteDebugger.Proofs.Symbol.Reads
import RemoteDebugger.Proofs.Symbol.Scan
import RemoteDebugger.Proofs.Text.Hex
import RemoteDebugger.Proofs.Text.Numeral
import RemoteDebugger.Proofs.Wire.Delivery
import RemoteDebugger.Proofs.Wire.Fields
import RemoteDebugger.Proofs.Wire.Piece
import RemoteDebugger.Proofs.Wire.PlainText
import RemoteDebugger.Proofs.Wire.RoundTrip
import RemoteDebugger.Proofs.Wire.Stream
import RemoteDebugger.Scheduler
import RemoteDebugger.Serial.Command
import RemoteDebugger.Serial.Packet
import RemoteDebugger.Serial.RegisterBlock
import RemoteDebugger.Serial.Reply
import RemoteDebugger.Serial.Scanner
import RemoteDebugger.Session.Event
import RemoteDebugger.Session.Execution
import RemoteDebugger.Session.Request
import RemoteDebugger.Session.Serial
import RemoteDebugger.Session.State
import RemoteDebugger.Symbol.Scan
import RemoteDebugger.Symbol.Table
import RemoteDebugger.Tape
import RemoteDebugger.Text.Blank
import RemoteDebugger.Text.Control
import RemoteDebugger.Text.Hex
import RemoteDebugger.Text.Numeral
import RemoteDebugger.Text.Utf8
import RemoteDebugger.Watch
import RemoteDebugger.Wire.Decoding
import RemoteDebugger.Wire.Encoding
import RemoteDebugger.Wire.Error
import RemoteDebugger.Wire.Frame
import RemoteDebugger.Wire.Message
import RemoteDebugger.Word
