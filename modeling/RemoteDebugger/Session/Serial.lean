/-
# Commands of GDB

GDB's commands are carried out at once and answered, but for the one that lets the machine
run: its answer is the reason of the next stop.  While GDB is attached the machine does
not run unless GDB lets it; when GDB leaves, the machine runs on and what GDB watched is
forgotten, while breakpoints stay.
-/
import RemoteDebugger.Session.Execution
import RemoteDebugger.Serial.RegisterBlock

namespace RemoteDebugger

/-- What comes of a command of GDB. -/
inductive SerialOutcome where
  /-- It is answered at once. -/
  | reply (reply : Reply)
  /-- It is answered when the machine stops. -/
  | deferred
  /-- GDB leaves without an answer. -/
  | close
deriving DecidableEq, Repr

/-- The error number of a refusal. -/
def Fault.errorCode : Fault → UInt8
  | .misaligned _ => 0x16
  | .noBreakpoint _ => 0x02
  | .outOfRange .. => 0x0e
  | _ => 0x01

/-- The error number of arguments that are not as they should be. -/
def badArguments : UInt8 := 0x01

/-- The most bytes that are read at once: twice as many digits fit into a packet. -/
def maxSerialRead : Nat := 0x2000

/-- The features that the target tells GDB of. -/
def supportedFeatures : String := "PacketSize=4000;swbreak+;hwbreak+"

/-- The answer to a question. -/
def Query.answer : Query → Reply
  | .supported => .text supportedFeatures
  | .currentThread => .text "QC1"
  | .firstThreads => .text "m1"
  | .moreThreads => .text "l"
  | .attached => .text "1"
  | .unknown _ => .empty

/-- The answer to a command that is carried out or fails. -/
def SerialOutcome.ofResult {α : Type} : Except Fault α → SerialOutcome
  | .ok _ => .reply .ok
  | .error fault => .reply (.error fault.errorCode)

namespace Session

/-- GDB has attached: it finds a stopped machine. -/
def attach (s : Session) : Session :=
  { s with gdb := { attached := true }, started := true }.halt .attached

/-- GDB has left. -/
def detach (s : Session) : Except Fault Unit × Session :=
  if s.gdb.attached then { s with gdb := {} }.resume else (.ok (), s)

/-- GDB asks the machine to stop. -/
def interrupt (s : Session) : Session :=
  if s.isRunning then s.halt .interrupted else s

/-- Read a register by its number in the block of registers. -/
def readRegister (s : Session) (index : Nat) : Reply :=
  let machine := s.scheduler.machine
  if h : index < registerCount then .hex (Word.littleEndian machine.registers[index])
  else if index < RegisterBlock.floatStatusIndex then
    .hex (List.replicate RegisterBlock.floatLength 0)
  else if index = RegisterBlock.floatStatusIndex then .hex (List.replicate 4 0)
  else if index = RegisterBlock.modeIndex then .hex (Word.littleEndian machine.mode)
  else .error badArguments

/-- Write a register by its number; what follows the general registers keeps its value. -/
def writeRegister (s : Session) (index : Nat) (data : List UInt8) : Reply × Session :=
  if index < registerCount then
    (.ok, s.onMachine fun machine => machine.setRegister index (RegisterBlock.readWord data))
  else if index ≤ RegisterBlock.modeIndex then (.ok, s)
  else (.error badArguments, s)

/-- Write the registers that a block holds. -/
def writeRegisters (s : Session) (data : List UInt8) : Session :=
  let values := RegisterBlock.decode data
  s.onMachine fun machine =>
    { machine with
      registers := Vector.ofFn fun i : Fin registerCount =>
        values[i].getD machine.registers[i] }

/-- Set the program counter if an address is given. -/
def goTo (s : Session) : Option UInt32 → Session
  | some address => s.onMachine fun machine => machine.setPc address
  | none => s

/-- Whether a watchpoint is the one of a kind at an address. -/
def isPoint (point : Point) (w : Watchpoint) : Bool :=
  w.address == point.address && w.kind == point.kind

/-- Watch a range for GDB, in place of one of the same kind at the same address. -/
def insertWatchpoint (s : Session) (point : Point) : Reply × Session :=
  if point.length = 0 then (.error badArguments, s)
  else match s.range point.address point.length.toNat with
    | .error fault => (.error fault.errorCode, s)
    | .ok last =>
      let kept := s.gdb.watchpoints.filter fun w => !isPoint point w
      let added : Watchpoint :=
        { kind := point.kind, address := point.address, length := point.length, last }
      (.ok, { s with gdb := { s.gdb with watchpoints := kept ++ [added] } })

/-- Watch a range for GDB no longer. -/
def removeWatchpoint (s : Session) (point : Point) : Session :=
  { s with
    gdb := { s.gdb with
      watchpoints := s.gdb.watchpoints.filter fun w => !isPoint point w } }

/-- Watch for a point. -/
def insertPoint (s : Session) (point : Point) : SerialOutcome × Session :=
  match point.kind with
  | .software | .hardware =>
    let (outcome, s) := s.setBreakpoint point.address
    (.ofResult outcome, s)
  | .write | .access =>
    let (reply, s) := s.insertWatchpoint point
    (.reply reply, s)
  | .read => (.reply .empty, s)

/-- Watch for a point no longer. -/
def removePoint (s : Session) (point : Point) : SerialOutcome × Session :=
  match point.kind with
  | .software | .hardware =>
    let (outcome, s) := s.unsetBreakpoint point.address
    (.ofResult outcome, s)
  | .write | .access => (.reply .ok, s.removeWatchpoint point)
  | .read => (.reply .empty, s)

/-- Carry a command out. -/
def executeSerial (s : Session) (command : SerialCommand) : SerialOutcome × Session :=
  match command with
  | .haltReason => (.reply (.stop s.gdb.lastStop), s)
  | .readRegisters =>
    let machine := s.scheduler.machine
    (.reply (.hex (RegisterBlock.encode machine.registers machine.mode)), s)
  | .writeRegisters data => (.reply .ok, s.writeRegisters data)
  | .readRegister index => (.reply (s.readRegister index), s)
  | .writeRegister index data =>
    let (reply, s) := s.writeRegister index data
    (.reply reply, s)
  | .readMemory address length =>
    match s.readMemory address (min length maxSerialRead) with
    | .ok bytes => (.reply (.hex bytes), s)
    | .error fault => (.reply (.error fault.errorCode), s)
  | .writeMemory address data =>
    let (outcome, s) := s.writeMemory address data
    (.ofResult outcome, s)
  | .resume address =>
    match (s.goTo address).resume with
    | (.ok (), s) => (.deferred, s)
    | (.error fault, s) => (.reply (.error fault.errorCode), s)
  | .step address =>
    match (s.goTo address).step with
    | (.ok .breakpoint, s) => (.reply (.stop .softwareBreak), s)
    | (.ok _, s) => (.reply (.stop .trap), s)
    | (.error fault, s) => (.reply (.error fault.errorCode), s)
  | .detach => (.reply .ok, s)
  | .kill => (.close, s)
  | .setThread => (.reply .ok, s)
  | .query query => (.reply query.answer, s)
  | .insertPoint point => s.insertPoint point
  | .removePoint point => s.removePoint point
  | .malformed => (.reply (.error badArguments), s)
  | .unsupported => (.reply .empty, s)

/-- Whether GDB is owed the reason of the next stop, from now on. -/
def setOwesStop (s : Session) (owesStop : Bool) : Session :=
  { s with gdb := { s.gdb with owesStop } }

/-- Carry a command out and answer it, now or when the machine stops. -/
def handleSerial (s : Session) (command : SerialCommand) : Session :=
  match command with
  | .resume _ =>
    match (s.setOwesStop true).executeSerial command with
    | (.reply reply, s) => (s.setOwesStop false).reply reply
    | (.deferred, s) | (.close, s) => s
  | _ =>
    match s.executeSerial command with
    | (.reply reply, s) => s.reply reply
    | (.deferred, s) | (.close, s) => s

end Session
end RemoteDebugger
