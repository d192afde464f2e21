/-
# Commands of the serial protocol

A packet's payload is a command: a letter and its arguments, numbers in hexadecimal and
data as hexadecimal digits or, for one command, as escaped bytes.  A command whose
arguments are not as they should be is *malformed*; one with a letter that this target
does not know is *unsupported*.  All payloads but those with escaped bytes are text, and a
payload that is not text is malformed whatever its letter.
-/
import RemoteDebugger.Serial.Packet

namespace RemoteDebugger

/-- What a point that the target shall watch for is. -/
inductive PointKind where
  | software | hardware | write | read | access
deriving DecidableEq, Repr

namespace PointKind

/-- The kind with a given digit. -/
def ofDigit? (code : UInt8) : Option PointKind :=
  match code with
  | 0x30 => some .software
  | 0x31 => some .hardware
  | 0x32 => some .write
  | 0x33 => some .read
  | 0x34 => some .access
  | _ => none

/-- Whether the target stops at the point because it executes it. -/
def isBreakpoint : PointKind → Bool
  | .software | .hardware => true
  | .write | .read | .access => false

end PointKind

/-- A point that the target shall watch for. -/
structure Point where
  /-- What it is. -/
  kind : PointKind
  /-- Where it is. -/
  address : UInt32
  /-- How many bytes it covers. -/
  length : UInt32
deriving DecidableEq, Repr

/-- A question about the target. -/
inductive Query where
  | supported | currentThread | firstThreads | moreThreads | attached
  /-- A question that this target does not know. -/
  | unknown (name : String)
deriving DecidableEq, Repr

/-- A command of the serial protocol. -/
inductive SerialCommand where
  /-- Why the target stands still. -/
  | haltReason
  /-- Read all registers. -/
  | readRegisters
  /-- Write all registers. -/
  | writeRegisters (data : List UInt8)
  /-- Read a register. -/
  | readRegister (index : Nat)
  /-- Write a register. -/
  | writeRegister (index : Nat) (data : List UInt8)
  /-- Read memory. -/
  | readMemory (address : UInt32) (length : Nat)
  /-- Write memory. -/
  | writeMemory (address : UInt32) (data : List UInt8)
  /-- Run, from a given address if there is one. -/
  | resume (address : Option UInt32)
  /-- Execute one instruction, the one at a given address if there is one. -/
  | step (address : Option UInt32)
  /-- Leave the target. -/
  | detach
  /-- Leave the target at once. -/
  | kill
  /-- Choose a thread. -/
  | setThread
  /-- Ask about the target. -/
  | query (query : Query)
  /-- Watch for a point. -/
  | insertPoint (point : Point)
  /-- Watch for a point no longer. -/
  | removePoint (point : Point)
  /-- The arguments are not as they should be. -/
  | malformed
  /-- The letter is not known. -/
  | unsupported
deriving DecidableEq, Repr

namespace SerialCommand

/-- The parts of a text before and behind the first separator. -/
def splitAtFirst? (separator : UInt8) (codes : List UInt8) :
    Option (List UInt8 × List UInt8) :=
  match codes.dropWhile (· != separator) with
  | [] => none
  | _ :: rest => some (codes.takeWhile (· != separator), rest)

/-- An address and a length with a comma between them. -/
def range? (codes : List UInt8) : Option (UInt32 × Nat) := do
  let (address, length) ← splitAtFirst? 0x2c codes
  return (← Numeral.hexWord? address, (← Numeral.hexWord? length).toNat)

/-- The address to go on from, if there is one. -/
def resumeAddress? (codes : List UInt8) : Option (Option UInt32) :=
  if codes.isEmpty then some none else (Numeral.hexWord? codes).map some

/-- A signal, which the target does not heed, and the address to go on from, if there is
one behind a semicolon. -/
def signalAddress? (codes : List UInt8) : Option (Option UInt32) :=
  match splitAtFirst? 0x3b codes with
  | some (signal, address) => do
    let _ ← Numeral.hexWord? signal
    return some (← Numeral.hexWord? address)
  | none => (Numeral.hexWord? codes).map fun _ => none

/-- A range and data that is as long as the range says. -/
def write? (codes data : List UInt8) : Option SerialCommand := do
  let (address, length) ← range? codes
  guard (data.length = length)
  return .writeMemory address data

/-- A write of escaped data. -/
def binaryWrite? (codes : List UInt8) : Option SerialCommand := do
  let (header, escaped) ← splitAtFirst? 0x3a codes
  write? header (← (Packet.unescape escaped).toOption)

/-- A write of data in hexadecimal digits. -/
def hexWrite? (codes : List UInt8) : Option SerialCommand := do
  let (header, digits) ← splitAtFirst? 0x3a codes
  write? header (← Hex.decode? digits)

/-- A register and its value. -/
def registerWrite? (codes : List UInt8) : Option SerialCommand := do
  let (index, value) ← splitAtFirst? 0x3d codes
  return .writeRegister (← Numeral.hexWord? index).toNat (← Hex.decode? value)

/-- A point: its kind, its address and its length with commas between them.  Conditions
behind a semicolon are not heeded. -/
def point? : List UInt8 → Option Point
  | digit :: 0x2c :: rest => do
    let kind ← PointKind.ofDigit? digit
    let (address, length) ← splitAtFirst? 0x2c (rest.takeWhile (· != 0x3b))
    return { kind, address := ← Numeral.hexWord? address, length := ← Numeral.hexWord? length }
  | _ => none

/-- The query that a text names up to its first colon, comma or semicolon. -/
def queryOf (text : String) : Query :=
  let name := String.ofList (text.toList.takeWhile fun c => c != ':' && c != ',' && c != ';')
  if name = "Supported" then .supported
  else if name = "C" then .currentThread
  else if name = "fThreadInfo" then .firstThreads
  else if name = "sThreadInfo" then .moreThreads
  else if name = "Attached" then .attached
  else .unknown name

/-- The command of a letter, if the letter is known: nothing inside of `some` is a command
whose arguments are not as they should be. -/
def ofLetter? (letter : UInt8) (codes : List UInt8) (text : String) :
    Option (Option SerialCommand) :=
  match letter with
  | 0x3f => some (some .haltReason)
  | 0x67 => some (some .readRegisters)
  | 0x47 => some ((Hex.decode? codes).map .writeRegisters)
  | 0x70 => some ((Numeral.hexWord? codes).map fun index => .readRegister index.toNat)
  | 0x50 => some (registerWrite? codes)
  | 0x6d => some ((range? codes).map fun (address, length) => .readMemory address length)
  | 0x4d => some (hexWrite? codes)
  | 0x63 => some ((resumeAddress? codes).map .resume)
  | 0x73 => some ((resumeAddress? codes).map .step)
  | 0x43 => some ((signalAddress? codes).map .resume)
  | 0x53 => some ((signalAddress? codes).map .step)
  | 0x44 => some (some .detach)
  | 0x6b => some (some .kill)
  | 0x48 => some (some .setThread)
  | 0x71 => some (some (.query (queryOf text)))
  | 0x5a => some ((point? codes).map .insertPoint)
  | 0x7a => some ((point? codes).map .removePoint)
  | _ => none

/-- The command in a payload, which is still escaped. -/
def parse : List UInt8 → SerialCommand
  | [] => .unsupported
  | 0x58 :: codes => (binaryWrite? codes).getD .malformed
  | letter :: codes =>
    match Text.ofUtf8? codes with
    | none => .malformed
    | some text =>
      match ofLetter? letter codes text with
      | none => .unsupported
      | some command => command.getD .malformed

end SerialCommand
end RemoteDebugger
