/-
# Why the debugger refuses

One type for all causes that can keep a request of the debugger from being carried out,
from a memory access past the end of memory to a machine that has been shut down.  Each
cause keeps what its wording needs; `Fault.message` is the wording.
-/
import RemoteDebugger.Text.Hex

namespace RemoteDebugger

/-- Why a configuration is refused. -/
inductive ConfigProblem where
  /-- A running machine would not execute anything. -/
  | noFrameCycles
  /-- Waiting for the machine would never give way. -/
  | noPollInterval
deriving DecidableEq, Repr

/-- The wording of a problem with a configuration. -/
def ConfigProblem.message : ConfigProblem → String
  | .noFrameCycles => "frame cycles must be at least 1"
  | .noPollInterval => "poll interval must be non-zero"

/-- Why a request is not carried out. -/
inductive Fault where
  /-- A breakpoint is asked for at an address that is not the address of a word. -/
  | misaligned (address : UInt32)
  /-- There is no breakpoint to take away. -/
  | noBreakpoint (address : UInt32)
  /-- An access goes beyond the end of memory. -/
  | outOfRange (address : UInt32) (length : Nat)
  /-- The machine has been shut down. -/
  | terminated
  /-- There is no watch to take away. -/
  | noWatch (id : UInt32)
  /-- The catalogue has no such tape. -/
  | noTape (index : UInt32) (count : Nat)
  /-- The name of a symbol is too long; the address behind the first byte too many. -/
  | longName (address : UInt32) (limit : Nat)
  /-- A listing does not have one line for each word. -/
  | lineCount (lines words : Nat)
  /-- Nobody is there to receive a message. -/
  | notConnected
  /-- The configuration cannot work. -/
  | invalidConfig (problem : ConfigProblem)
deriving DecidableEq, Repr

namespace Fault

/-- The wording of a refusal. -/
def message : Fault → String
  | .misaligned address =>
    "breakpoint address 0x" ++ Hex.word8 address ++ " is not 4-byte aligned"
  | .noBreakpoint address => "no breakpoint at 0x" ++ Hex.word8 address
  | .outOfRange address length =>
    "memory access out of range: 0x" ++ Hex.word8 address ++ "+" ++ toString length
  | .terminated => "scheduler terminated"
  | .noWatch id => s!"Memory watch {id} not found"
  | .noTape index count => s!"Tape index {index} out of range (catalog has {count} entries)"
  | .longName address limit =>
    "Symbol name at 0x" ++ Hex.word8 address ++ " exceeds " ++ toString limit ++ " bytes"
  | .lineCount lines words => s!"Disassembler returned {lines} lines for {words} words"
  | .notConnected => "No peer connected"
  | .invalidConfig problem => "Invalid configuration: " ++ problem.message

end Fault
end RemoteDebugger
