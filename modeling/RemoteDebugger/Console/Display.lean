/-
# What the console shows

The console shows every message that the debugger sends as some lines of text: a report of
the processor as a table of registers, memory as rows of sixteen bytes, lists one item a
line.  Messages that a debugger does not send are named only.
-/
import RemoteDebugger.Text.Hex
import RemoteDebugger.Wire.Message

namespace RemoteDebugger
namespace Console

/-- A number in hexadecimal with at least eight digits. -/
def address8 (n : Nat) : String := Text.ofCodes (Hex.padded (max 8 (Hex.digitCount n)) n)

/-- Values in rows of so many. -/
def rows {α : Type} (width : Nat) (values : List α) : List (List α) :=
  match values with
  | [] => []
  | v :: rest => (v :: rest.take (width - 1)) :: rows width (rest.drop (width - 1))
termination_by values.length
decreasing_by simp only [List.length_drop, List.length_cons]; omega

/-- A register with its number, padded to two places. -/
def registerCell (index : Nat) (value : UInt32) : String :=
  let number := toString index
  "r" ++ number ++ (if number.length < 2 then " " else "") ++ " " ++ Hex.word8 value

/-- The lines of a report of the processor. -/
def snapshotLines (s : Snapshot) : List String :=
  let cells := s.registers.toList.mapIdx registerCell
  [""] ++ (rows 4 cells).map (fun row => "  " ++ "  ".intercalate row)
    ++ ["  pc  " ++ Hex.word8 s.pc ++ "  mode " ++ Hex.text s.mode.toNat
      ++ if s.waiting then "  (waiting for interrupt)" else ""]

/-- The rows of bytes from an address on. -/
def dumpLines (start : UInt32) (data : List UInt8) : List String :=
  (rows 16 data).mapIdx fun i row =>
    "  " ++ address8 (start.toNat + 16 * i) ++ ": " ++ " ".intercalate (row.map Hex.byte2)

/-- The lines that a message is shown as. -/
def messageLines : Message → List String
  | .stop => ["", "Stopped"]
  | .state snapshot => snapshotLines snapshot
  | .memoryData contents =>
    s!"Watch {contents.id} @ 0x" ++ Hex.word8 contents.start ++ ":"
      |> fun title => title :: dumpLines contents.start contents.data
  | .disassemblyData listing => listing.lines
  | .tapeList window =>
    s!"Tapes ({window.total} total):" :: window.names.mapIdx fun i name =>
      "  " ++ toString (window.start.toNat + i) ++ ". " ++ name
  | .symbolData [] => ["No symbols found"]
  | .symbolData symbols => symbols.map fun s => "  0x" ++ Hex.word8 s.1 ++ " " ++ s.2
  | message => ["Received " ++ message.kind.name]

/-- What the console answers to a request for help. -/
def helpLines : List String :=
  ["Available commands:",
    "",
    "  help           - Show this help message",
    "  quit/exit/q    - Exit the client",
    "",
    "Execution:",
    "  continue (c)   - Continue execution",
    "  stop           - Stop execution",
    "  step (s)       - Execute one instruction",
    "  next (n)       - Step over a call",
    "  restart        - Restart the machine",
    "",
    "Breakpoints and memory:",
    "  break <addr>   - Set breakpoint at address",
    "  delete <addr>  - Remove breakpoint at address",
    "  watch <id> <addr> [size] - Watch a memory region",
    "  unwatch <id>   - Remove a memory watch",
    "  disas <addr> [size] - Disassemble memory",
    "  symbols        - List symbols",
    "",
    "Tapes:",
    "  tapes [start] [count] - List tapes",
    "  load <index>   - Load a tape",
    "  unload         - Unload the current tape",
    "",
    "Examples:",
    "  break 0x8000",
    "  watch 1 0x1000 64",
    "  disas 0x8000"]

end Console
end RemoteDebugger
