/-
# What running leaves alone

The machine of this development never stores: a cycle moves the program counter and
delivers interrupts.  So memory and the image behind it, the *contents* of a machine, are
the same after any number of cycles and after any call of the scheduler but a reset.

A scheduler that has been shut down stays so, and a call that waits for its cycles fails on
no other scheduler.
-/
import Mathlib.Tactic.Common
import RemoteDebugger.Scheduler

namespace RemoteDebugger

namespace Machine

/-- The memory of a machine and the image that it starts from. -/
def contents (machine : Machine) : Memory × Memory := (machine.memory, machine.image)

lemma contents_deliver (machine : Machine) : machine.deliver.contents = machine.contents := by
  simp only [deliver]
  split
  · rfl
  · rfl

lemma contents_cycle (machine : Machine) : machine.cycle.2.contents = machine.contents := by
  rw [← contents_deliver machine]
  simp only [cycle]
  split
  · rfl
  · split
    · rfl
    · split
      · rfl
      · rfl

lemma contents_run (cycles : Nat) (machine : Machine) :
    (machine.run cycles).2.contents = machine.contents := by
  induction cycles generalizing machine with
  | zero => rfl
  | succ cycles ih =>
    rw [← contents_cycle machine, run]
    split
    · next after h => rw [ih, h]
    · next h => rw [h]

lemma run_one (machine : Machine) : machine.run 1 = machine.cycle := by
  rw [run]
  rcases hcycle : machine.cycle with ⟨status, after⟩
  cases status with
  | done => rfl
  | breakpoint => rfl
  | waiting => rfl

lemma waiting_of_cycle {machine : Machine} (h : machine.cycle.1 = .waiting) :
    machine.cycle.2.waiting = true := by
  simp only [cycle] at h ⊢
  split
  · next hwaiting => exact hwaiting
  · next hwaiting =>
    rw [if_neg hwaiting] at h
    split
    · next htrap => rw [if_pos htrap] at h; cases h
    · next htrap =>
      rw [if_neg htrap] at h
      split
      · rfl
      · next hwait => rw [if_neg hwait] at h; cases h

/-- A run that is cut short by waiting leaves a machine that waits. -/
lemma waiting_of_run {cycles : Nat} {machine : Machine} (h : (machine.run cycles).1 = .waiting) :
    (machine.run cycles).2.waiting = true := by
  induction cycles generalizing machine with
  | zero => cases h
  | succ cycles ih =>
    have hwaiting : machine.cycle.1 = .waiting → machine.cycle.2.waiting = true :=
      waiting_of_cycle
    rcases hcycle : machine.cycle with ⟨status, after⟩
    rw [hcycle] at hwaiting
    rw [run, hcycle] at h ⊢
    cases status with
    | done => exact ih h
    | breakpoint => cases h
    | waiting => exact hwaiting rfl

end Machine

namespace Scheduler

/-- The contents of the machine. -/
def contents (s : Scheduler) : Memory × Memory := s.machine.contents

lemma contents_work (s : Scheduler) : s.work.contents = s.contents := by
  simp only [work]
  split
  · exact Machine.contents_run s.owed.toNat s.machine
  · rfl

lemma contents_step (s : Scheduler) (cycles : UInt32) : (s.step cycles).contents = s.contents :=
  contents_work (s.request cycles)

lemma contents_interrupt (s : Scheduler) (irq : Interrupt) :
    (s.interrupt irq).contents = s.contents :=
  contents_work (s.assertLine irq)

/-- What shutting down keeps, and an interrupt, waiting keeps. -/
lemma await_invariant {P : Scheduler → Prop} (hshutdown : ∀ s, P s → P s.shutdown)
    (hinterrupt : ∀ s irq rest, P s → P ({ s with arrivals := rest }.interrupt irq))
    (arrivals : List Interrupt) {s : Scheduler} (h : P s) : P (await arrivals s).2 := by
  induction arrivals generalizing s with
  | nil =>
    simp only [await]
    split
    · exact h
    · split
      · exact h
      · exact hshutdown s h
  | cons irq rest ih =>
    simp only [await]
    split
    · exact h
    · split
      · exact h
      · exact ih (hinterrupt s irq rest h)

lemma contents_await (arrivals : List Interrupt) (s : Scheduler) :
    (await arrivals s).2.contents = s.contents :=
  await_invariant (P := fun y => y.contents = s.contents) (fun _ h => h)
    (fun _ irq _ h => (contents_interrupt _ irq).trans h) arrivals rfl

lemma contents_stepAndWait (s : Scheduler) (cycles : UInt32) :
    (s.stepAndWait cycles).2.contents = s.contents := by
  simp only [stepAndWait]
  split
  · rfl
  · rw [contents_await, contents_step]

/-- With the contents memory is known. -/
lemma memory_of_contents {s s' : Scheduler} (h : s'.contents = s.contents) :
    s'.memory = s.memory :=
  congrArg Prod.fst h

/-- With the contents the image is known. -/
lemma image_of_contents {s s' : Scheduler} (h : s'.contents = s.contents) :
    s'.machine.image = s.machine.image :=
  congrArg Prod.snd h

@[simp] lemma contents_setMemory (s : Scheduler) (memory : Memory) :
    (s.setMemory memory).contents = (memory, s.machine.image) := rfl

/-! ### Shutting down -/

@[simp] lemma live_setMemory (s : Scheduler) (memory : Memory) :
    (s.setMemory memory).live = s.live := rfl

@[simp] lemma live_work (s : Scheduler) : s.work.live = s.live := by
  simp only [work]
  split
  · rfl
  · rfl

@[simp] lemma live_step (s : Scheduler) (cycles : UInt32) : (s.step cycles).live = s.live :=
  live_work (s.request cycles)

@[simp] lemma live_interrupt (s : Scheduler) (irq : Interrupt) :
    (s.interrupt irq).live = s.live :=
  live_work (s.assertLine irq)

@[simp] lemma arrivals_work (s : Scheduler) : s.work.arrivals = s.arrivals := by
  simp only [work]
  split
  · rfl
  · rfl

@[simp] lemma arrivals_step (s : Scheduler) (cycles : UInt32) :
    (s.step cycles).arrivals = s.arrivals :=
  arrivals_work (s.request cycles)

@[simp] lemma arrivals_interrupt (s : Scheduler) (irq : Interrupt) :
    (s.interrupt irq).arrivals = s.arrivals :=
  arrivals_work (s.assertLine irq)

/-- Waiting ends well exactly if the scheduler has not been shut down by then, and then it
had not been before. -/
lemma live_await (arrivals : List Interrupt) (s : Scheduler) :
    ((await arrivals s).2.live = true → s.live = true) ∧
      ((await arrivals s).2.live = true ↔ ∃ status, (await arrivals s).1 = .ok status) := by
  induction arrivals generalizing s with
  | nil =>
    simp only [await]
    split
    · next h => simp_all
    · next h => split <;> simp_all [shutdown]
  | cons irq rest ih =>
    simp only [await]
    split
    · next h => simp_all
    · next h =>
      split
      · simp_all
      · refine ⟨fun hlive => ?_, (ih _).2⟩
        simpa using h

lemma live_of_live_stepAndWait {s : Scheduler} {cycles : UInt32}
    (h : (s.stepAndWait cycles).2.live = true) : s.live = true := by
  simp only [stepAndWait] at h
  split at h
  · exact h
  · rw [← live_step s cycles]
    exact (live_await _ _).1 h

lemma live_stepAndWait_iff {s : Scheduler} {cycles : UInt32} :
    (s.stepAndWait cycles).2.live = true ↔ ∃ status, (s.stepAndWait cycles).1 = .ok status := by
  simp only [stepAndWait]
  split
  · cases hlive : s.live <;> simp
  · exact (live_await _ _).2

/-! ### Turns that are taken at once -/

/-- A worker that is not kept from it by an idle machine executes all cycles at once. -/
lemma step_eq {s : Scheduler} (hlive : s.live = true) (hstatus : s.status ≠ .waiting)
    {cycles : UInt32} (hcycles : cycles ≠ 0) :
    s.step cycles =
      { s with
        machine := (s.machine.run cycles.toNat).2, status := (s.machine.run cycles.toNat).1
        owed := 0 } := by
  simp only [step, work]
  rw [if_pos]
  · rfl
  · simp [ready, request, hlive, hstatus, hcycles]

/-- There is nothing to wait for after a cycle that does not wait. -/
lemma stepAndWait_one {s : Scheduler} (hlive : s.live = true) (hstatus : s.status ≠ .waiting)
    {status : Status} {machine : Machine} (hcycle : s.machine.cycle = (status, machine))
    (hne : status ≠ .waiting) :
    s.stepAndWait 1 = (.ok status, { s with machine, status, owed := 0 }) := by
  have hrun : s.machine.run (1 : UInt32).toNat = (status, machine) :=
    (Machine.run_one s.machine).trans hcycle
  have hstep := step_eq hlive hstatus (by decide : (1 : UInt32) ≠ 0)
  rw [hrun] at hstep
  rw [stepAndWait, if_neg (by decide), hstep]
  unfold await
  rw [if_neg (by simp [hlive]), if_pos (by simp [hne])]

/-- If a cycle waits and no interrupt will come, the caller is blocked for good. -/
lemma stepAndWait_one_of_waiting {s : Scheduler} (hlive : s.live = true)
    (hstatus : s.status ≠ .waiting) (harrivals : s.arrivals = [])
    (hcycle : s.machine.cycle.1 = .waiting) : (s.stepAndWait 1).1 = .error .terminated := by
  have hrun : (s.machine.run (1 : UInt32).toNat).1 = .waiting := by
    rw [← hcycle, ← Machine.run_one]
    rfl
  rw [stepAndWait, if_neg (by decide), harrivals, step_eq hlive hstatus (by decide)]
  unfold await
  rw [hrun, if_neg (by simp [hlive]), if_neg (by simp)]

/-! ### Waiting -/

/-- A turn that was cut short by waiting has left a machine that waits. -/
def Honest (s : Scheduler) : Prop := s.status = .waiting → s.machine.waiting = true

lemma honest_setMemory {s : Scheduler} {memory : Memory} :
    (s.setMemory memory).Honest ↔ s.Honest := Iff.rfl

lemma honest_work {s : Scheduler} (h : s.Honest) : s.work.Honest := by
  simp only [work]
  split
  · exact fun hstatus => Machine.waiting_of_run hstatus
  · exact h

lemma honest_step {s : Scheduler} (h : s.Honest) (cycles : UInt32) : (s.step cycles).Honest :=
  honest_work (s := s.request cycles) h

lemma honest_interrupt {s : Scheduler} (h : s.Honest) (irq : Interrupt) :
    (s.interrupt irq).Honest :=
  honest_work (s := s.assertLine irq) h

lemma honest_await (arrivals : List Interrupt) {s : Scheduler} (h : s.Honest) :
    (await arrivals s).2.Honest :=
  await_invariant (P := Honest) (fun _ h => h)
    (fun y irq rest h => honest_interrupt (s := { y with arrivals := rest }) h irq) arrivals h

lemma honest_stepAndWait {s : Scheduler} (h : s.Honest) (cycles : UInt32) :
    (s.stepAndWait cycles).2.Honest := by
  simp only [stepAndWait]
  split
  · exact h
  · exact honest_await _ (honest_step h cycles)

end Scheduler
end RemoteDebugger
