/-
# The state of a debugging session

A session stands between a machine and those who debug it: a client that sends messages,
and GDB on the serial protocol.  It is either stopped or running; a running session asks
the scheduler for *slices* of cycles, one after another, and a slice may stay in flight
while the machine is idle.

What a session sends is part of its state: the messages for the client and the replies for
GDB, each in the order in which they were sent.
-/
import RemoteDebugger.Breakpoint
import RemoteDebugger.Config
import RemoteDebugger.Instruction.Listing
import RemoteDebugger.Serial.Reply
import RemoteDebugger.Tape
import RemoteDebugger.Watch

namespace RemoteDebugger

/-- Whether a session waits for requests or lets the machine run. -/
inductive RunState where
  | stopped | running
deriving DecidableEq, Repr

/-- A range of memory whose change stops the machine, and what it held when it was last
looked at. -/
structure Watchpoint where
  /-- What GDB asked to watch for. -/
  kind : PointKind
  /-- The first address. -/
  address : UInt32
  /-- How many bytes. -/
  length : UInt32
  /-- What the range held. -/
  last : ByteArray

/-- What a session knows about GDB. -/
structure Attachment where
  /-- Whether GDB is attached. -/
  attached : Bool := false
  /-- Whether GDB has let the machine run and is owed the reason of its next stop. -/
  owesStop : Bool := false
  /-- Why the machine stopped last. -/
  lastStop : StopReason := .signal 5
  /-- The ranges that GDB watches. -/
  watchpoints : List Watchpoint := []

/-- A debugging session. -/
structure Session where
  /-- The machine and its worker. -/
  scheduler : Scheduler
  /-- The configuration. -/
  config : Config
  /-- What makes the lines of listings. -/
  disassembler : Disassembler
  /-- The breakpoints in memory. -/
  breakpoints : Breakpoints := {}
  /-- The breakpoint that goes away at the next stop. -/
  nextBreakpoint : Option UInt32 := none
  /-- The ranges that the client watches. -/
  watches : Watches := {}
  /-- The symbols that were read last. -/
  symbols : SymbolTable := {}
  /-- The tapes. -/
  tapes : Tapes := {}
  /-- Whether the symbols may have changed since they were read. -/
  invalidated : Bool := false
  /-- Whether a client takes reports. -/
  connected : Bool := false
  /-- Whether the machine runs. -/
  runState : RunState := .stopped
  /-- Whether the machine has run before. -/
  started : Bool := false
  /-- Whether a slice has been asked for that is not known to have ended. -/
  sliceInFlight : Bool := false
  /-- What is known about GDB. -/
  gdb : Attachment := {}
  /-- The messages that were sent to the client. -/
  sent : Array Message := #[]
  /-- The replies that were sent to GDB. -/
  replies : Array Reply := #[]

namespace Session

/-- Whether the machine runs. -/
def isRunning (s : Session) : Bool := s.runState == .running

/-- The memory of the machine, traps included. -/
def memory (s : Session) : Memory := s.scheduler.memory

/-- The program counter. -/
def pc (s : Session) : UInt32 := s.scheduler.pc

/-- Send a message to the client. -/
def send (s : Session) (message : Message) : Session := { s with sent := s.sent.push message }

/-- Send a reply to GDB. -/
def reply (s : Session) (reply : Reply) : Session := { s with replies := s.replies.push reply }

/-- Change the machine. -/
def onMachine (s : Session) (f : Machine → Machine) : Session :=
  { s with scheduler := s.scheduler.onMachine f }

/-- Have other breakpoints in other memory. -/
def setBreakpoints (s : Session) (breakpoints : Breakpoints) (memory : Memory) : Session :=
  { s with breakpoints, scheduler := s.scheduler.setMemory memory }

/-- What was sent is received, and leaves the record. -/
def clearRecord (s : Session) : Session := { s with sent := #[], replies := #[] }

/-! ### Memory as the program left it -/

/-- A range of memory as it would be without breakpoints. -/
def range (s : Session) (address : UInt32) (length : Nat) : Except Fault ByteArray :=
  (s.memory.extract address length).map (s.breakpoints.overlay address.toNat)

/-- Read memory as it would be without breakpoints. -/
def readMemory (s : Session) (address : UInt32) (length : Nat) : Except Fault (List UInt8) :=
  (s.range address length).map (·.data.toList)

/-- A watchpoint that has seen what its range holds now. -/
def look (s : Session) (w : Watchpoint) : Watchpoint :=
  match s.range w.address w.length.toNat with
  | .ok now => { w with last := now }
  | .error _ => w

/-- Let all watchpoints see what their ranges hold now. -/
def refreshWatchpoints (s : Session) : Session :=
  { s with gdb := { s.gdb with watchpoints := s.gdb.watchpoints.map s.look } }

/-- Whether the range of a watchpoint holds something else than what was last seen there. -/
def hasChanged (s : Session) (w : Watchpoint) : Bool := !(s.look w).last.beq w.last

/-- The first watchpoint whose range has changed; afterwards all have seen the change. -/
def pollWatchpoints (s : Session) : Option Watchpoint × Session :=
  (s.gdb.watchpoints.find? s.hasChanged, s.refreshWatchpoints)

/-- Write memory and leave the breakpoints where they are. -/
def writeMemory (s : Session) (address : UInt32) (data : List UInt8) :
    Except Fault Unit × Session :=
  match s.breakpoints.write address data s.memory with
  | .error fault => (.error fault, s)
  | .ok (breakpoints, memory) =>
    (.ok (), (s.setBreakpoints breakpoints memory).refreshWatchpoints)

/-! ### Reports -/

/-- Read the symbols that are in memory. -/
def scanSymbols (s : Session) : Except Fault SymbolTable :=
  SymbolTable.scan s.memory s.config.symbolsAddress s.config.limits

/-- Send the symbols. -/
def sendSymbols (s : Session) : Session := s.send (.symbolData s.symbols.entries)

/-- The report of a watched range, if it can be read. -/
def watchReport? (s : Session) (view : MemoryView) : Option Message :=
  match s.readMemory view.watchStart view.watchSize.toNat with
  | .ok data => some (.memoryData { id := view.id, start := view.watchStart, data })
  | .error _ => none

/-- What a client is told at every stop: the state of the processor and the ranges that it
watches, by number. -/
def stopReport (s : Session) : List Message :=
  .state s.scheduler.machine.snapshot :: s.watches.values.filterMap s.watchReport?

/-- Tell a client, if there is one, how things stand. -/
def pushUpdate (s : Session) : Session :=
  if s.connected then { s with sent := s.sent ++ s.stopReport } else s

/-- If the symbols may have changed, read them again and send them; if they cannot be read,
keep the old ones. -/
def reloadSymbols (s : Session) : Session :=
  if s.invalidated then
    match s.scanSymbols with
    | .ok symbols => { s with invalidated := false, symbols }.sendSymbols
    | .error _ => { s with invalidated := false }
  else s

/-- What follows every stop. -/
def afterStop (s : Session) : Session := s.reloadSymbols.pushUpdate

/-- A session at its start: stopped, with the symbols that are in memory. -/
def create (scheduler : Scheduler) (config : Config) (disassembler : Disassembler)
    (tapes : Tapes) (connected : Bool) : Session :=
  let s : Session := { scheduler, config, disassembler, tapes, connected }
  match s.scanSymbols with
  | .ok symbols => { s with symbols }
  | .error _ => s

end Session
end RemoteDebugger
