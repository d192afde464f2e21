/-
# The core of a session

For the machine, its memory and the breakpoints, the *core* of a session, most of what a
session does is beside the point: reports, replies and what is known about GDB.  What is
left are nine *operations*.  Each of them is described here by what it does to the core:
which breakpoints it sets or takes away, and whether the scheduler has *run* in between.
-/
import Mathlib.Tactic.Common
import RemoteDebugger.Proofs.Breakpoint.StepOver
import RemoteDebugger.Proofs.Scheduler.Frame
import RemoteDebugger.Session.Execution

namespace RemoteDebugger
namespace Session

/-! ### The core -/

/-- The part of a session that its operations work on. -/
structure Core where
  /-- The machine and its worker. -/
  scheduler : Scheduler
  /-- The breakpoints. -/
  breakpoints : Breakpoints
  /-- The breakpoint that goes away at the next stop. -/
  nextBreakpoint : Option UInt32
  /-- Whether the machine runs. -/
  runState : RunState
  /-- Whether a slice is in flight. -/
  sliceInFlight : Bool

/-- The core of a session. -/
def core (s : Session) : Core :=
  { scheduler := s.scheduler, breakpoints := s.breakpoints, nextBreakpoint := s.nextBreakpoint,
    runState := s.runState, sliceInFlight := s.sliceInFlight }

lemma scheduler_of_core {s : Session} {c : Core} (h : s.core = c) : s.scheduler = c.scheduler :=
  congrArg Core.scheduler h

lemma breakpoints_of_core {s : Session} {c : Core} (h : s.core = c) :
    s.breakpoints = c.breakpoints :=
  congrArg Core.breakpoints h

@[simp] lemma core_send (s : Session) (message : Message) : (s.send message).core = s.core := rfl

@[simp] lemma core_refreshWatchpoints (s : Session) : s.refreshWatchpoints.core = s.core := rfl

@[simp] lemma core_pollWatchpoints (s : Session) : s.pollWatchpoints.2.core = s.core := rfl

@[simp] lemma core_recordStop (s : Session) (reason : StopReason) :
    (s.recordStop reason).core = s.core := by
  simp only [recordStop]
  split
  · rfl
  · rfl

@[simp] lemma core_pushUpdate (s : Session) : s.pushUpdate.core = s.core := by
  simp only [pushUpdate]
  split
  · rfl
  · rfl

@[simp] lemma core_reloadSymbols (s : Session) : s.reloadSymbols.core = s.core := by
  simp only [reloadSymbols]
  split
  · split
    · rfl
    · rfl
  · rfl

@[simp] lemma core_afterStop (s : Session) : s.afterStop.core = s.core := by
  rw [afterStop, core_pushUpdate, core_reloadSymbols]

lemma core_create (scheduler : Scheduler) (config : Config) (disassembler : Disassembler)
    (tapes : Tapes) (connected : Bool) :
    (create scheduler config disassembler tapes connected).core =
      { scheduler, breakpoints := {}, nextBreakpoint := none, runState := .stopped,
        sliceInFlight := false } := by
  simp only [create]
  split
  · rfl
  · rfl

/-! ### Operations -/

/-- An operation on the core of a session. -/
inductive Operation where
  /-- Stop. -/
  | halt (cause : StopCause)
  /-- Let the machine run. -/
  | resume
  /-- Execute one instruction. -/
  | step
  /-- Go on to the next instruction. -/
  | next
  /-- Switch the machine off and on again. -/
  | restart
  /-- Go one slice on. -/
  | advance
  /-- Set a breakpoint. -/
  | setBreakpoint (address : UInt32)
  /-- Take a breakpoint away. -/
  | unsetBreakpoint (address : UInt32)
  /-- Write memory. -/
  | write (address : UInt32) (data : List UInt8)

/-- Carry an operation out. -/
def operate (s : Session) : Operation → Session
  | .halt cause => s.halt cause
  | .resume => s.resume.2
  | .step => s.step.2
  | .next => s.next.2
  | .restart => s.restart.2
  | .advance => s.advance.2
  | .setBreakpoint address => (s.setBreakpoint address).2
  | .unsetBreakpoint address => (s.unsetBreakpoint address).2
  | .write address data => (s.writeMemory address data).2

/-! ### Running -/

/-- The scheduler `y` is what `x` has become by running under the breakpoints `t`. -/
structure Ran (t : Breakpoints) (x y : Scheduler) : Prop where
  /-- Memory and the image are the same if the traps are in memory. -/
  contents : t.Installed x.memory → y.contents = x.contents
  /-- A scheduler that is live has been live. -/
  live : y.live = true → x.live = true
  /-- A turn that was cut short by waiting has left a machine that waits. -/
  honest : x.Honest → y.Honest

namespace Ran

variable {t : Breakpoints} {x y z : Scheduler}

lemma refl (t : Breakpoints) (x : Scheduler) : Ran t x x := ⟨fun _ => rfl, id, id⟩

lemma step (t : Breakpoints) (x : Scheduler) (cycles : UInt32) : Ran t x (x.step cycles) where
  contents _ := Scheduler.contents_step x cycles
  live h := by rwa [Scheduler.live_step] at h
  honest h := Scheduler.honest_step h cycles

lemma stepAndWait (t : Breakpoints) (x : Scheduler) (cycles : UInt32) :
    Ran t x (x.stepAndWait cycles).2 where
  contents _ := Scheduler.contents_stepAndWait x cycles
  live := Scheduler.live_of_live_stepAndWait
  honest h := Scheduler.honest_stepAndWait h cycles

lemma stepOver {outcome : Except Fault Status} (h : t.stepOver x = some (outcome, y)) :
    Ran t x y ∧ (y.live = true ↔ ∃ status, outcome = .ok status) := by
  simp only [Breakpoints.stepOver] at h
  split at h
  · cases h
  · next word hword =>
    simp only [Option.some.injEq, Prod.mk.injEq] at h
    obtain ⟨rfl, rfl⟩ := h
    -- a run on the memory with the word in place of its trap
    obtain ⟨-, hlive, hhonest⟩ := stepAndWait t (x.setMemory (x.memory.setWord x.pc word)) 1
    have hcontents := Scheduler.contents_stepAndWait (x.setMemory (x.memory.setWord x.pc word)) 1
    rw [Scheduler.live_setMemory] at hlive
    rw [Scheduler.honest_setMemory] at hhonest
    refine ⟨⟨fun ht => ?_, ?_, ?_⟩, ?_⟩
    · rw [Scheduler.contents_setMemory, Scheduler.memory_of_contents hcontents,
        Scheduler.image_of_contents hcontents]
      refine Prod.ext ?_ rfl
      exact ht.setWord_setWord_trap hword
    · rw [Scheduler.live_setMemory]
      exact hlive
    · rw [Scheduler.honest_setMemory]
      exact hhonest
    · rw [Scheduler.live_setMemory]
      exact Scheduler.live_stepAndWait_iff

end Ran

/-! ### What the operations do to the core -/

lemma ran_settle (t : Breakpoints) (s : Session) : Ran t s.scheduler s.settle.scheduler := by
  simp only [settle]
  split
  · exact ⟨fun _ => rfl, id, id⟩
  · exact .refl t s.scheduler

lemma settle_of_stopped {s : Session} (hstopped : s.runState = .stopped)
    (hlanded : s.sliceInFlight = false) : s.settle = s := by
  obtain ⟨⟩ := s
  dsimp only at hstopped hlanded
  subst hstopped hlanded
  rfl

@[simp] lemma core_halt (s : Session) (cause : StopCause) :
    (s.halt cause).core = s.settle.clearNextBreakpoint.core := by
  simp only [halt]
  rw [core_afterStop]
  split
  · rw [core_send, core_recordStop]
  · rw [core_recordStop]

lemma runState_halt (s : Session) (cause : StopCause) : (s.halt cause).runState = .stopped := by
  change (s.halt cause).core.runState = _
  rw [core_halt]
  simp only [clearNextBreakpoint]
  split
  · rfl
  · split
    · rfl
    · rfl

/-- Letting the machine run executes at most the word under a trap, and fails only if the
machine is shut down. -/
lemma resume_cases (s : Session) : ∃ y, Ran s.breakpoints s.scheduler y ∧
    (s.resume.2.core = { s.core with scheduler := y, runState := .running } ∨
      y.live = false ∧ s.resume.2.core = { s.core with scheduler := y }) := by
  simp only [resume]
  split
  · next hrunning =>
    have hstate : s.runState = .running := eq_of_beq hrunning
    refine ⟨s.scheduler, .refl .., Or.inl ?_⟩
    rw [← hstate]
    rfl
  · split
    · exact ⟨s.scheduler, .refl .., Or.inl rfl⟩
    · next y hover => exact ⟨y, (Ran.stepOver hover).1, Or.inl rfl⟩
    · next fault y hover =>
      obtain ⟨hran, hlive⟩ := Ran.stepOver hover
      refine ⟨y, hran, Or.inr ⟨?_, rfl⟩⟩
      rw [← Bool.not_eq_true, hlive]
      rintro ⟨status, hstatus⟩
      cases hstatus

/-- A step is one cycle of a stopped session without a breakpoint of a *next*. -/
lemma step_cycle (s : Session) :
    s.step.1 = (s.settle.clearNextBreakpoint.breakpoints.cycle
        s.settle.clearNextBreakpoint.scheduler).1 ∧
      s.step.2.core =
        { s.settle.clearNextBreakpoint.core with
          scheduler := (s.settle.clearNextBreakpoint.breakpoints.cycle
            s.settle.clearNextBreakpoint.scheduler).2 } := by
  simp only [step, Breakpoints.cycle]
  split
  · next hresult =>
    rw [hresult]
    exact ⟨rfl, rfl⟩
  · next hresult =>
    rw [core_afterStop, core_recordStop, hresult]
    exact ⟨rfl, rfl⟩

lemma core_step (s : Session) :
    ∃ y, Ran s.settle.clearNextBreakpoint.breakpoints s.settle.clearNextBreakpoint.scheduler y ∧
      s.step.2.core = { s.settle.clearNextBreakpoint.core with scheduler := y } := by
  refine ⟨_, ?_, (step_cycle s).2⟩
  rw [Breakpoints.cycle]
  cases hover : s.settle.clearNextBreakpoint.breakpoints.stepOver
    s.settle.clearNextBreakpoint.scheduler with
  | none => exact .stepAndWait ..
  | some result => exact (Ran.stepOver hover).1

lemma setNextBreakpoint_eq_ok {s t : Session} {address : UInt32}
    (h : s.setNextBreakpoint address = .ok t) (hnew : s.breakpoints.contains address = false) :
    ∃ breakpoints memory, s.breakpoints.add address s.memory = .ok (some (breakpoints, memory)) ∧
      t = { s with nextBreakpoint := some address }.setBreakpoints breakpoints memory := by
  simp only [setNextBreakpoint] at h
  rcases hadd : s.breakpoints.add address s.memory with fault | _ | ⟨breakpoints, memory⟩
  · rw [hadd] at h
    cases h
  · simp only [Breakpoints.add] at hadd
    rw [hnew] at hadd
    split at hadd
    · cases hadd
    · split at hadd
      · contradiction
      · split at hadd <;> cases hadd
  · rw [hadd] at h
    exact ⟨breakpoints, memory, rfl, (Except.ok.inj h).symm⟩

/-- What a *next* does to a session that has been stopped. -/
inductive NextCase (s : Session) : Session → Prop where
  /-- The word at the program counter cannot be read. -/
  | unreadable (fault : Fault) (h : s.currentWord = .error fault) : NextCase s s
  /-- Behind the call there is a breakpoint already. -/
  | known (word : UInt32) (h : s.currentWord = .ok word) (hcall : Instruction.isCall word = true)
    (hknown : s.breakpoints.contains (s.pc + 4) = true) : NextCase s s.resume.2
  /-- Behind the call there can be no breakpoint. -/
  | refused (word : UInt32) (h : s.currentWord = .ok word)
    (hcall : Instruction.isCall word = true)
    (hnew : s.breakpoints.contains (s.pc + 4) = false) : NextCase s s
  /-- A breakpoint is put up behind the call. -/
  | called (word : UInt32) (h : s.currentWord = .ok word) (hcall : Instruction.isCall word = true)
    (hnew : s.breakpoints.contains (s.pc + 4) = false) (breakpoints : Breakpoints)
    (memory : Memory)
    (hadd : s.breakpoints.add (s.pc + 4) s.memory = .ok (some (breakpoints, memory))) :
    NextCase s
      ({ s with nextBreakpoint := some (s.pc + 4) }.setBreakpoints breakpoints memory).resume.2
  /-- There is no call. -/
  | single (word : UInt32) (h : s.currentWord = .ok word)
    (hcall : Instruction.isCall word = false) : NextCase s s.step.2

lemma nextCase (s : Session) : NextCase s.settle s.next.2 := by
  simp only [next]
  split
  · next fault h => exact .unreadable fault h
  · next word h =>
    split
    · next hcall =>
      split
      · next hknown => exact .known word h hcall hknown
      · next hknown =>
        rw [Bool.not_eq_true] at hknown
        split
        · exact .refused word h hcall hknown
        · next ht =>
          obtain ⟨breakpoints, memory, hadd, rfl⟩ := setNextBreakpoint_eq_ok ht hknown
          exact .called word h hcall hknown breakpoints memory hadd
    · next hcall => exact .single word h (by rwa [Bool.not_eq_true] at hcall)

/-- The session at the stop of a restart: the machine is reset and has its traps, and the
symbols may have changed. -/
def afterReset (s : Session) : Session :=
  let stopped := s.settle.clearNextBreakpoint
  let reset := { stopped with scheduler := stopped.scheduler.reset }
  let trapped := reset.setBreakpoints reset.breakpoints (reset.breakpoints.reapply reset.memory)
  { trapped.refreshWatchpoints with invalidated := true }

/-- A restart sets the machine going again if it was running. -/
lemma restart_eq (s : Session) :
    s.restart.2 =
      if s.isRunning then s.afterReset.afterStop.resume.2 else s.afterReset.afterStop := by
  simp only [restart]
  split
  · rfl
  · rfl

/-- A restart takes place on a stopped session without a breakpoint of a *next*, and sets
the machine going again if it was running. -/
lemma restart_cases (s : Session) : ∃ t : Session,
    t.core =
      { s.settle.clearNextBreakpoint.core with
        scheduler := s.settle.clearNextBreakpoint.scheduler.reset.setMemory
          (s.settle.clearNextBreakpoint.breakpoints.reapply
            s.settle.clearNextBreakpoint.scheduler.machine.image) } ∧
      s.restart.2 = if s.isRunning then t.resume.2 else t :=
  ⟨s.afterReset.afterStop, core_afterStop s.afterReset, restart_eq s⟩

/-- What a slice does to a running session. -/
inductive AdvanceCase (s : Session) : Session → Prop where
  /-- The slice has not ended. -/
  | flying (t : Session) (y : Scheduler) (h : Ran s.breakpoints s.scheduler y)
    (ht : t.core = { s.core with scheduler := y, sliceInFlight := true }) : AdvanceCase s t
  /-- The slice has ended, and the machine runs on. -/
  | landed (t : Session) (y : Scheduler) (h : Ran s.breakpoints s.scheduler y)
    (ht : t.core = { s.core with scheduler := y, sliceInFlight := false }) : AdvanceCase s t
  /-- The slice has ended and given a reason to stop. -/
  | stopped (t : Session) (y : Scheduler) (h : Ran s.breakpoints s.scheduler y)
    (ht : t.core = { s.core with scheduler := y, sliceInFlight := false }) (cause : StopCause) :
    AdvanceCase s (t.halt cause)

lemma launchSlice_spec (s : Session) :
    Ran s.breakpoints s.scheduler s.launchSlice.scheduler ∧
      s.launchSlice.core =
        { s.core with scheduler := s.launchSlice.scheduler, sliceInFlight := true } := by
  simp only [launchSlice]
  split
  · next hflight =>
    refine ⟨.refl .., ?_⟩
    rw [← hflight]
    rfl
  · exact ⟨.step .., rfl⟩

lemma core_of_pollWatchpoints {s t : Session} {w : Option Watchpoint}
    (h : s.pollWatchpoints = (w, t)) : t.core = s.core := by
  rw [← core_pollWatchpoints s, h]

lemma endSlice_cases (s : Session) (status : Status) :
    ∃ t : Session, t.core = { s.core with sliceInFlight := false } ∧
      (s.endSlice status = t ∨ ∃ cause, s.endSlice status = t.halt cause) := by
  simp only [endSlice]
  split
  · exact ⟨{ s with sliceInFlight := false }, rfl, Or.inr ⟨_, rfl⟩⟩
  · split
    · next seen hseen => exact ⟨seen, core_of_pollWatchpoints hseen, Or.inr ⟨_, rfl⟩⟩
    · next seen hseen => exact ⟨seen, core_of_pollWatchpoints hseen, Or.inl rfl⟩

lemma advance_cases (s : Session) :
    s.advance.2 = s ∨ s.isRunning = true ∧ AdvanceCase s s.advance.2 := by
  obtain ⟨hran, hcore⟩ := launchSlice_spec s
  unfold advance
  split
  · exact Or.inl rfl
  · next hrunning =>
    refine Or.inr ⟨by simpa using hrunning, ?_⟩
    dsimp only
    split
    · exact .flying _ _ hran hcore
    · exact .flying _ _ hran hcore
    · next status _ =>
      obtain ⟨t, ht, hend⟩ := endSlice_cases s.launchSlice status
      rw [hcore] at ht
      rcases hend with hend | ⟨cause, hend⟩
      · rw [hend]
        exact .landed t _ hran ht
      · rw [hend]
        exact .stopped t _ hran ht cause

end Session
end RemoteDebugger
