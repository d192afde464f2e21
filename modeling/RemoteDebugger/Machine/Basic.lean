/-
# The machine

A small machine to debug: memory, registers, and interrupts that devices assert.  It does
not decode instructions.  Two words are special, the *trap*, which the machine does not
execute, and the *wait*, after which it is idle until an interrupt comes; every other word
only moves the program counter on.  A request for several cycles is a run of single ones
that ends early at a trap and while the machine is idle.
-/
import RemoteDebugger.Machine.Memory
import RemoteDebugger.Processor

namespace RemoteDebugger

/-- The word that stops the machine without being executed. -/
def trapWord : UInt32 := 0xefbeeeef

/-- The word that makes the machine wait for an interrupt. -/
def waitWord : UInt32 := 0xef000001

/-- A machine and all that it remembers. -/
structure Machine where
  /-- The memory. -/
  memory : Memory
  /-- The memory that the machine starts from whenever it is switched on. -/
  image : Memory
  /-- The general registers. -/
  registers : Registers := Vector.replicate registerCount 0
  /-- The mode word. -/
  mode : UInt32 := 0
  /-- Whether the machine waits for an interrupt. -/
  waiting : Bool := false
  /-- The interrupts that have been asserted and not been delivered, in order. -/
  queue : List Interrupt := []
  /-- The interrupts that have been delivered, in order. -/
  delivered : List Interrupt := []
deriving DecidableEq

namespace Machine

/-- A machine with the given image in memory of at least `size` bytes. -/
def create (size : Nat) (image : List UInt8) : Machine :=
  let memory := Memory.ofImage size image
  { memory, image := memory }

/-- The program counter, the last register. -/
def pc (machine : Machine) : UInt32 := machine.registers[15]

/-- Set a register; there is no register of another number. -/
def setRegister (machine : Machine) (index : Nat) (value : UInt32) : Machine :=
  { machine with registers := machine.registers.setIfInBounds index value }

/-- Set the program counter. -/
def setPc (machine : Machine) (value : UInt32) : Machine := machine.setRegister 15 value

/-- What can be seen of the processor. -/
def snapshot (machine : Machine) : Snapshot :=
  { registers := machine.registers, mode := machine.mode, pc := machine.pc,
    waiting := machine.waiting }

/-- Whether an interrupt has been asserted and not been delivered. -/
def interruptPending (machine : Machine) : Bool := !machine.queue.isEmpty

/-- Assert an interrupt. -/
def interrupt (machine : Machine) (irq : Interrupt) : Machine :=
  { machine with queue := machine.queue ++ [irq] }

/-- Switch the machine off and on again.  What it has delivered stays on record. -/
def reset (machine : Machine) : Machine :=
  { memory := machine.image, image := machine.image, delivered := machine.delivered }

/-- The address of the next word; behind the last word the machine starts over. -/
def nextPc (machine : Machine) : UInt32 :=
  if machine.memory.size ≤ (machine.pc + 4).toNat then 0 else machine.pc + 4

/-- Deliver the interrupt that was asserted last, which ends the waiting. -/
def deliver (machine : Machine) : Machine :=
  match machine.queue.getLast? with
  | some irq =>
    { machine with
      queue := machine.queue.dropLast, delivered := machine.delivered ++ [irq], waiting := false }
  | none => machine

/-- The word at the program counter; outside of memory there are zeros. -/
def fetch (machine : Machine) : UInt32 := (machine.memory.word? machine.pc).getD 0

/-- Execute one cycle. -/
def cycle (machine : Machine) : Status × Machine :=
  let machine := machine.deliver
  if machine.waiting then (.waiting, machine)
  else if machine.fetch = trapWord then (.breakpoint, machine)
  else if machine.fetch = waitWord then
    (.waiting, { machine.setPc machine.nextPc with waiting := true })
  else (.done, machine.setPc machine.nextPc)

/-- Execute so many cycles, up to the first that does not end well. -/
def run : Nat → Machine → Status × Machine
  | 0, machine => (.done, machine)
  | cycles + 1, machine =>
    match machine.cycle with
    | (.done, machine) => run cycles machine
    | (status, machine) => (status, machine)

/-- Read memory. -/
def read (machine : Machine) (address : UInt32) (length : Nat) : Except Fault (List UInt8) :=
  machine.memory.read address length

/-- Write memory. -/
def write (machine : Machine) (address : UInt32) (data : List UInt8) : Except Fault Machine :=
  (machine.memory.write address data).map fun memory => { machine with memory }

end Machine
end RemoteDebugger
