/-
# Running and stopping

The machine runs in slices.  A session that is running gives the scheduler a slice, and
when the slice has ended looks whether there is a reason to stop: a trap, or a watched
range that has changed.  While GDB watches a range a slice is one cycle, so that a change
is seen at once.

A trap at the program counter must not stop a machine that is set going: the word under
it is executed first.  A *next* over a call puts a trap behind the call that goes away at
the next stop.
-/
import RemoteDebugger.Session.State

namespace RemoteDebugger

/-- Why a running machine stops. -/
inductive StopCause where
  /-- The client asked for it, and needs no telling. -/
  | requested
  /-- A trap. -/
  | breakpoint
  /-- A watched range that has changed. -/
  | watchpoint (kind : PointKind) (address : UInt32)
  /-- GDB asked for it. -/
  | interrupted
  /-- GDB has attached. -/
  | attached
deriving DecidableEq, Repr

namespace StopCause

/-- The reason that GDB is told. -/
def reason : StopCause → StopReason
  | .breakpoint => .softwareBreak
  | .watchpoint kind address => .watch kind address
  | .requested | .interrupted => .interrupted
  | .attached => .signal 5

/-- Whether the client is told that the machine has stopped. -/
def notifiesClient : StopCause → Bool
  | .requested => false
  | _ => true

end StopCause

namespace Session

/-- Stop, and give up a slice that is in flight. -/
def settle (s : Session) : Session :=
  { s with
    scheduler := if s.sliceInFlight || s.isRunning then s.scheduler.cancel else s.scheduler
    sliceInFlight := false
    runState := .stopped }

/-- Take the breakpoint away that a *next* has put up. -/
def clearNextBreakpoint (s : Session) : Session :=
  match s.nextBreakpoint with
  | none => s
  | some address =>
    match s.breakpoints.remove address s.memory with
    | .ok (breakpoints, memory) =>
      { s with nextBreakpoint := none }.setBreakpoints breakpoints memory
    | .error _ => { s with nextBreakpoint := none }

/-- Remember why the machine stopped, and tell GDB if it is owed the reason. -/
def recordStop (s : Session) (reason : StopReason) : Session :=
  let told := if s.gdb.owesStop then s.reply (.stop reason) else s
  { told with gdb := { s.gdb with lastStop := reason, owesStop := false } }

/-- Stop for a cause. -/
def halt (s : Session) (cause : StopCause) : Session :=
  let settled := s.settle.clearNextBreakpoint.recordStop cause.reason
  let told := if s.isRunning && cause.notifiesClient then settled.send .stop else settled
  told.afterStop

/-- Let the machine run.  If the program counter stands on a breakpoint, the word that the
trap stands for is executed at once. -/
def resume (s : Session) : Except Fault Unit × Session :=
  if s.isRunning then (.ok (), s)
  else match s.breakpoints.stepOver s.scheduler with
    | none => (.ok (), { s with started := true, runState := .running })
    | some (.ok _, scheduler) =>
      (.ok (), { s with started := true, runState := .running, scheduler })
    | some (.error fault, scheduler) => (.error fault, { s with started := true, scheduler })

/-- How many cycles a slice has. -/
def sliceCycles (s : Session) : UInt32 :=
  if s.gdb.watchpoints.isEmpty then s.config.frameCycles else 1

/-- Give the scheduler a slice, unless there is one in flight. -/
def launchSlice (s : Session) : Session :=
  if s.sliceInFlight then s
  else { s with scheduler := s.scheduler.step s.sliceCycles, sliceInFlight := true }

/-- What follows the end of a slice. -/
def endSlice (s : Session) (status : Status) : Session :=
  let landed := { s with sliceInFlight := false }
  if status = .breakpoint then landed.halt .breakpoint
  else match landed.pollWatchpoints with
    | (some w, seen) => seen.halt (.watchpoint w.kind w.address)
    | (none, seen) => seen

/-- Go one slice on.  A slice that cannot end because the machine is idle stays in
flight. -/
def advance (s : Session) : Except Fault Unit × Session :=
  if !s.isRunning then (.ok (), s)
  else
    let launched := s.launchSlice
    match launched.scheduler.poll with
    | .error fault => (.error fault, launched)
    | .ok none => (.ok (), launched)
    | .ok (some status) => (.ok (), launched.endSlice status)

/-- Go up to so many slices on while the machine runs: how many slices have ended, and
whether one could not. -/
def advanceSlices : Nat → Session → Except Fault (Nat × Bool) × Session
  | 0, s => (.ok (0, false), s)
  | limit + 1, s =>
    if !s.isRunning then (.ok (0, false), s)
    else match s.advance with
      | (.error fault, s) => (.error fault, s)
      | (.ok (), s) =>
        if s.sliceInFlight then (.ok (0, true), s)
        else match advanceSlices limit s with
          | (.ok (slices, blocked), s) => (.ok (slices + 1, blocked), s)
          | (.error fault, s) => (.error fault, s)

/-- Execute one instruction.  On an idle machine this waits for an interrupt. -/
def step (s : Session) : Except Fault Status × Session :=
  let s := { s.settle.clearNextBreakpoint with started := true }
  let (outcome, scheduler) :=
    (s.breakpoints.stepOver s.scheduler).getD (s.scheduler.stepAndWait 1)
  let s := { s with scheduler }
  match outcome with
  | .error fault => (.error fault, s)
  | .ok status =>
    let reason := if status = .breakpoint then StopReason.softwareBreak else .trap
    (.ok status, (s.recordStop reason).afterStop)

/-- The word at the program counter as it would be without breakpoints. -/
def currentWord (s : Session) : Except Fault UInt32 :=
  match s.breakpoints.wordUnder? s.pc with
  | some word => .ok word
  | none => s.memory.readWord s.pc

/-- Put a breakpoint up that goes away at the next stop, unless there is one already. -/
def setNextBreakpoint (s : Session) (address : UInt32) : Except Fault Session :=
  (s.breakpoints.add address s.memory).map fun
    | none => s
    | some (breakpoints, memory) =>
      { s with nextBreakpoint := some address }.setBreakpoints breakpoints memory

/-- Go on to the next instruction: over a call, or one step. -/
def next (s : Session) : Except Fault Unit × Session :=
  let s := s.settle
  match s.currentWord with
  | .error fault => (.error fault, s)
  | .ok word =>
    if Instruction.isCall word then
      if s.breakpoints.contains (s.pc + 4) then s.resume
      else match s.setNextBreakpoint (s.pc + 4) with
        | .error fault => (.error fault, s)
        | .ok s => s.resume
    else
      let (outcome, s) := s.step
      (outcome.map fun _ => (), s)

/-- Switch the machine off and on again.  The breakpoints stay, and so do the words that
they stand for; a machine that was running runs on. -/
def restart (s : Session) : Except Fault Unit × Session :=
  let stopped := s.settle.clearNextBreakpoint
  let reset := { stopped with scheduler := stopped.scheduler.reset }
  let trapped := reset.setBreakpoints reset.breakpoints (reset.breakpoints.reapply reset.memory)
  let restarted := { trapped.refreshWatchpoints with invalidated := true }.afterStop
  if s.isRunning then restarted.resume else (.ok (), restarted)

/-- Set a breakpoint for good; false if there is one already.  A breakpoint that a *next*
has put up stays then. -/
def setBreakpoint (s : Session) (address : UInt32) : Except Fault Bool × Session :=
  if s.nextBreakpoint = some address then (.ok true, { s with nextBreakpoint := none })
  else match s.breakpoints.add address s.memory with
    | .error fault => (.error fault, s)
    | .ok none => (.ok false, s)
    | .ok (some (breakpoints, memory)) => (.ok true, s.setBreakpoints breakpoints memory)

/-- Take a breakpoint away. -/
def unsetBreakpoint (s : Session) (address : UInt32) : Except Fault Unit × Session :=
  match s.breakpoints.remove address s.memory with
  | .error fault => (.error fault, s)
  | .ok (breakpoints, memory) =>
    let s := s.setBreakpoints breakpoints memory
    (.ok (), if s.nextBreakpoint = some address then { s with nextBreakpoint := none } else s)

end Session
end RemoteDebugger
