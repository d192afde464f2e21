/-
# How a slice ends

A call of `advance` gives the scheduler a slice and looks whether it has ended.  Here is all
that such a call can do, with what it depends on (`SliceCase`), and what a session does at the
end of a slice (`SliceEnd`): a trap stops it, and so does a watched range that has changed;
otherwise it runs on.
-/
import RemoteDebugger.Proofs.Session.Core

namespace RemoteDebugger
namespace Session

variable {s t : Session} {status : Status}

/-- The slice in flight has ended. -/
def landed (s : Session) : Session := { s with sliceInFlight := false }

/-- The first watchpoint whose range has changed. -/
def changed? (s : Session) : Option Watchpoint := s.gdb.watchpoints.find? s.hasChanged

lemma isRunning_iff : s.isRunning = true ↔ s.runState = .running := beq_iff_eq

lemma runState_of_not_isRunning (h : ¬ s.isRunning = true) : s.runState = .stopped := by
  cases hstate : s.runState with
  | stopped => rfl
  | running => exact absurd (isRunning_iff.2 hstate) h

/-- What the end of a slice does to a session. -/
inductive SliceEnd (s : Session) : Status → Session → Prop where
  /-- The slice ended at a trap. -/
  | trapped : SliceEnd s .breakpoint (s.landed.halt .breakpoint)
  /-- The range of a watchpoint has changed. -/
  | changed (status : Status) (hstatus : status ≠ .breakpoint) (w : Watchpoint)
    (hw : s.changed? = some w) :
    SliceEnd s status (s.landed.refreshWatchpoints.halt (.watchpoint w.kind w.address))
  /-- There is no reason to stop. -/
  | unchanged (status : Status) (hstatus : status ≠ .breakpoint) (hnone : s.changed? = none) :
    SliceEnd s status s.landed.refreshWatchpoints

lemma sliceEnd (s : Session) (status : Status) : SliceEnd s status (s.endSlice status) := by
  simp only [endSlice]
  split
  · next hstatus =>
    rw [hstatus]
    exact .trapped
  · next hstatus =>
    split
    · next w seen hpoll =>
      obtain ⟨hw, rfl⟩ := Prod.mk.inj hpoll
      exact .changed status hstatus w hw
    · next seen hpoll =>
      obtain ⟨hnone, rfl⟩ := Prod.mk.inj hpoll
      exact .unchanged status hstatus hnone

/-- What a call of `advance` does to a session. -/
inductive SliceCase (s : Session) : Session → Prop where
  /-- The session is stopped. -/
  | idle (h : s.runState = .stopped) : SliceCase s s
  /-- The slice has not ended, or the machine is shut down. -/
  | flying (h : s.runState = .running)
    (hpoll : ∀ status, s.launchSlice.scheduler.poll ≠ .ok (some status)) :
    SliceCase s s.launchSlice
  /-- The slice has ended. -/
  | ended (h : s.runState = .running) (status : Status)
    (hpoll : s.launchSlice.scheduler.poll = .ok (some status)) (t : Session)
    (hend : SliceEnd s.launchSlice status t) : SliceCase s t

lemma sliceCase (s : Session) : SliceCase s s.advance.2 := by
  unfold advance
  split
  · next hidle => exact .idle (runState_of_not_isRunning (by simpa using hidle))
  · next hrunning =>
    have hrunning : s.runState = .running := isRunning_iff.1 (by simpa using hrunning)
    dsimp only
    split
    · next fault hpoll => exact .flying hrunning fun status h => by rw [hpoll] at h; cases h
    · next hpoll => exact .flying hrunning fun status h => by rw [hpoll] at h; cases h
    · next status hpoll => exact .ended hrunning status hpoll _ (sliceEnd s.launchSlice status)

lemma runState_launchSlice (s : Session) : s.launchSlice.runState = s.runState :=
  congrArg Core.runState (launchSlice_spec s).2

/-- A slice that stops the session has ended, and found a reason. -/
lemma exists_halt_of_stopped (hrunning : s.runState = .running)
    (hstopped : s.advance.2.runState = .stopped) :
    ∃ u cause, s.advance.2 = u.halt cause ∧ cause.notifiesClient = true ∧
      (u = s.launchSlice.landed ∨ u = s.launchSlice.landed.refreshWatchpoints) := by
  have hcase := sliceCase s
  generalize s.advance.2 = t at hcase hstopped
  have hstate := (runState_launchSlice s).trans hrunning
  cases hcase with
  | idle h => exact absurd (hrunning.symm.trans h) (by decide)
  | flying => exact absurd (hstate.symm.trans hstopped) (by decide)
  | ended h status hpoll _ hend =>
    cases hend with
    | trapped => exact ⟨_, _, rfl, rfl, .inl rfl⟩
    | changed _ _ w => exact ⟨_, _, rfl, rfl, .inr rfl⟩
    | unchanged => exact absurd (hstate.symm.trans hstopped) (by decide)

end Session
end RemoteDebugger
