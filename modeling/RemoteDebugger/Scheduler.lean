/-
# The scheduler

The machine is run by a worker of its own.  Callers ask for cycles and devices assert
interrupts; the worker takes a turn whenever cycles are owed, unless the machine is idle
and no interrupt has come.  A turn executes all cycles that are owed, so one turn leaves
nothing to do, and the state after a call is the state after the worker's turn.

`request`, `assertLine` and `work` are the single sections of that play; `step` and
`interrupt` are the calls, each with the turn that follows it.

A caller that waits for its cycles on an idle machine is *blocked* until devices assert
interrupts.  Those that will come while it waits are part of the state, in order; when
they have run out and the caller is still blocked, the machine is shut down, which is the
other way such a call ends.
-/
import RemoteDebugger.Machine.Basic

namespace RemoteDebugger

/-- The machine and what its worker has to do. -/
structure Scheduler where
  /-- The machine. -/
  machine : Machine
  /-- The cycles that are owed. -/
  owed : UInt32 := 0
  /-- How the last turn of the worker ended. -/
  status : Status := .done
  /-- Whether the machine has not been shut down. -/
  live : Bool := true
  /-- The interrupts that devices will assert while a caller is blocked. -/
  arrivals : List Interrupt := []
deriving DecidableEq

namespace Scheduler

/-- Whether the worker has something to do. -/
def ready (s : Scheduler) : Bool :=
  s.live && s.owed != 0 && (s.status != .waiting || s.machine.interruptPending)

/-- Whether cycles are owed that only an interrupt can set going. -/
def blocked (s : Scheduler) : Bool :=
  s.owed != 0 && s.status == .waiting && !s.machine.interruptPending

/-- The worker's turn. -/
def work (s : Scheduler) : Scheduler :=
  if s.ready then
    let (status, machine) := s.machine.run s.owed.toNat
    { s with machine, status, owed := 0 }
  else s

/-- Owe so many cycles, in place of those that were owed. -/
def request (s : Scheduler) (cycles : UInt32) : Scheduler := { s with owed := cycles }

/-- Assert an interrupt.  If no cycles are owed then one is, so that the interrupt is not
left behind. -/
def assertLine (s : Scheduler) (irq : Interrupt) : Scheduler :=
  { s with
    machine := s.machine.interrupt irq, owed := if s.owed = 0 then 1 else s.owed }

/-- Ask for cycles and do not wait for them. -/
def step (s : Scheduler) (cycles : UInt32) : Scheduler := (s.request cycles).work

/-- A device's interrupt. -/
def interrupt (s : Scheduler) (irq : Interrupt) : Scheduler := (s.assertLine irq).work

/-- Owe nothing any more. -/
def cancel (s : Scheduler) : Scheduler := { s with owed := 0 }

/-- Switch the machine off and on again. -/
def reset (s : Scheduler) : Scheduler :=
  { s with machine := s.machine.reset, owed := 0, status := .done }

/-- Shut the machine down. -/
def shutdown (s : Scheduler) : Scheduler := { s with live := false }

/-- Wait until the cycles that are owed have been executed and the machine is not idle. -/
def await : List Interrupt → Scheduler → Except Fault Status × Scheduler
  | arrivals, s =>
    if !s.live then (.error .terminated, s)
    else if s.owed = 0 && s.status != .waiting then (.ok s.status, s)
    else match arrivals with
      | [] => (.error .terminated, s.shutdown)
      | irq :: rest => await rest ({ s with arrivals := rest }.interrupt irq)

/-- Ask for cycles and wait for them.  With none asked for, tell how the last ones ended. -/
def stepAndWait (s : Scheduler) (cycles : UInt32) : Except Fault Status × Scheduler :=
  if cycles = 0 then (if s.live then .ok s.status else .error .terminated, s)
  else await s.arrivals (s.step cycles)

/-- How the cycles that were owed ended; nothing while they are still owed. -/
def poll (s : Scheduler) : Except Fault (Option Status) :=
  if !s.live then .error .terminated
  else if s.owed = 0 then .ok (some s.status)
  else .ok none

/-- Change the machine between two turns of the worker. -/
def onMachine (s : Scheduler) (f : Machine → Machine) : Scheduler :=
  { s with machine := f s.machine }

/-- Put other memory into the machine. -/
def setMemory (s : Scheduler) (memory : Memory) : Scheduler :=
  s.onMachine fun machine => { machine with memory }

/-- The memory of the machine. -/
def memory (s : Scheduler) : Memory := s.machine.memory

/-- The program counter of the machine. -/
def pc (s : Scheduler) : UInt32 := s.machine.pc

/-- After its turn the worker has nothing to do. -/
theorem ready_work (s : Scheduler) : s.work.ready = false := by
  unfold work
  split
  · simp [ready]
  · next h => simpa using h

end Scheduler
end RemoteDebugger
