/-
# What can be seen of the processor

The debugger shows a stopped machine as one snapshot of its processor: sixteen registers,
the last of which is the program counter, a mode word, and whether the processor is idle
until a device interrupts it.
-/

namespace RemoteDebugger

/-- The number of general registers. -/
abbrev registerCount : Nat := 16

/-- The general registers. -/
abbrev Registers : Type := Vector UInt32 registerCount

/-- The processor at one moment. -/
structure Snapshot where
  /-- The general registers, the program counter among them. -/
  registers : Registers
  /-- The mode word. -/
  mode : UInt32
  /-- The program counter. -/
  pc : UInt32
  /-- Whether the processor waits for an interrupt. -/
  waiting : Bool
deriving DecidableEq, Repr

/-- How a request for some cycles ended. -/
inductive Status where
  /-- All cycles were executed. -/
  | done
  /-- A trap word was reached; the program counter stands on it. -/
  | breakpoint
  /-- The processor waits for an interrupt. -/
  | waiting
deriving DecidableEq, Repr, Inhabited

/-- An interrupt line that a device asserts. -/
structure Interrupt where
  /-- The device. -/
  device : UInt32
  /-- What the device has to say. -/
  code : UInt32
deriving DecidableEq, Repr

end RemoteDebugger
