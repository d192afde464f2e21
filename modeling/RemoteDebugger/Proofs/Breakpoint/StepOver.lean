/-
# One cycle under the debugger

A step executes one cycle.  If the program counter stands on a breakpoint, the word under
the trap is put in its place for that cycle, and otherwise nothing is done to memory.  In
both cases it is a cycle on *lifted* memory, in which the program counter stands on the same
word as in plain memory (`Breakpoints.Installed.exists_lifted`); so it is a cycle of the
plain machine, and afterwards memory is as it was.
-/
import RemoteDebugger.Proofs.Breakpoint.Lockstep

namespace RemoteDebugger
namespace Breakpoints

/-- One cycle, with the word under a trap in its place if the program counter stands on a
breakpoint. -/
def cycle (t : Breakpoints) (x : Scheduler) : Except Fault Status × Scheduler :=
  (t.stepOver x).getD (x.stepAndWait 1)

variable {t : Breakpoints} {m : Memory} {machine : Machine} {x : Scheduler}

lemma stepOver_of_not_contains (h : ¬ t.contains x.pc = true) : t.stepOver x = none := by
  have hunder : t.wordUnder? x.pc = none := by
    rw [Option.eq_none_iff_forall_ne_some]
    exact fun word hword => h (contains_iff.2 (mem_keys_iff.2 ⟨word, hword⟩))
  rw [stepOver, hunder]

lemma exists_stepOver (h : t.contains x.pc = true) : ∃ result, t.stepOver x = some result := by
  obtain ⟨word, hword⟩ := mem_keys_iff.1 (contains_iff.1 h)
  rw [stepOver, hword]
  exact ⟨_, rfl⟩

/-- Whatever is in memory, a cycle is one that is waited for, in some memory that is put in
place before and replaced afterwards. -/
lemma exists_setMemory (t : Breakpoints) (x : Scheduler) : ∃ lifted restored : Memory,
    t.cycle x = (((x.setMemory lifted).stepAndWait 1).1,
      ((x.setMemory lifted).stepAndWait 1).2.setMemory restored) := by
  cases hunder : t.wordUnder? x.pc with
  | none =>
    rw [cycle, stepOver, hunder]
    exact ⟨x.memory, (x.stepAndWait 1).2.memory, rfl⟩
  | some word =>
    rw [cycle, stepOver, hunder]
    exact ⟨_, _, rfl⟩

namespace Installed

/-- A cycle is one on lifted memory. -/
lemma exists_lifted (ht : t.Installed m) (hmachine : x.machine = machine.withMemory m)
    (hplain : machine.memory = t.plain m) (haligned : machine.pc.toNat % 4 = 0) :
    ∃ lifted : Memory, lifted.size = machine.memory.size ∧
      (machine.withMemory lifted).fetch = machine.fetch ∧
      t.cycle x = (((x.setMemory lifted).stepAndWait 1).1,
        ((x.setMemory lifted).stepAndWait 1).2.setMemory m) := by
  have hmemory : x.memory = m := by rw [Scheduler.memory, hmachine]; rfl
  have hpc : x.pc = machine.pc := by rw [Scheduler.pc, hmachine]; rfl
  have hsize : m.size = machine.memory.size := by rw [hplain, size_plain]
  by_cases hcontains : t.contains machine.pc = true
  · obtain ⟨word, hword⟩ := mem_keys_iff.1 (contains_iff.1 hcontains)
    refine ⟨m.setWord machine.pc word, (Memory.size_setWord ..).trans hsize, ?_, ?_⟩
    · -- with the word in the place of its trap both machines stand on it
      have hset : (m.setWord machine.pc word).word? machine.pc = some word :=
        Memory.word?_setWord_self (ht.add_four_le (contains_iff.1 hcontains))
      have hword' : machine.memory.word? machine.pc = some word := by
        rw [hplain, ht.word?_plain haligned, hword]
        rfl
      simp only [Machine.fetch]
      rw [hword']
      exact congrArg (Option.getD · 0) hset
    · have hcontents := Scheduler.contents_stepAndWait
        (x.setMemory (m.setWord machine.pc word)) 1
      rw [cycle, stepOver, hpc, hmemory, hword, Option.getD_some,
        Scheduler.memory_of_contents hcontents]
      exact congrArg (Prod.mk _) (congrArg _ (ht.setWord_setWord_trap hword))
  · refine ⟨m, hsize, ht.fetch_of_not_contains hplain haligned hcontains, ?_⟩
    have hstay := Scheduler.memory_of_contents (Scheduler.contents_stepAndWait x 1)
    rw [cycle, stepOver_of_not_contains (by rwa [hpc]), Option.getD_none, ← hmemory]
    exact congrArg (Prod.mk _) (congrArg (Scheduler.setMemory _) hstay)

section Steady

variable (ht : t.Installed m) (hlive : x.live = true) (hstatus : x.status ≠ .waiting)
  (hmachine : x.machine = machine.withMemory m) (hplain : machine.memory = t.plain m)
  (hsteady : machine.Steady)

include ht hlive hstatus hmachine hplain hsteady

/-- A cycle that does not wait is one of the plain machine. -/
lemma cycle_of_ne_wait (hwait : machine.fetch ≠ waitWord) :
    t.cycle x = (.ok machine.cycle.1,
      { x with
        machine := machine.cycle.2.withMemory m, status := machine.cycle.1, owed := 0 }) := by
  obtain ⟨lifted, hsize, hfetch, hcycle⟩ := ht.exists_lifted hmachine hplain hsteady.aligned
  have hlifted : (x.setMemory lifted).machine.cycle =
      (machine.cycle.1, machine.cycle.2.withMemory lifted) := by
    rw [← hsteady.cycle_withMemory hsize hfetch hwait, Scheduler.setMemory, Scheduler.onMachine,
      hmachine]
    rfl
  rw [hcycle, Scheduler.stepAndWait_one (s := x.setMemory lifted) hlive hstatus hlifted
    (hsteady.cycle_ne_waiting hwait)]
  rfl

/-- A cycle that waits is never done if no interrupt will come. -/
lemma cycle_of_wait (harrivals : x.arrivals = []) (hwait : machine.fetch = waitWord) :
    (t.cycle x).1 = .error .terminated := by
  obtain ⟨lifted, -, hfetch, hcycle⟩ := ht.exists_lifted hmachine hplain hsteady.aligned
  have hlifted : (x.setMemory lifted).machine.cycle.1 = .waiting := by
    have hmachine' : (x.setMemory lifted).machine = machine.withMemory lifted := by
      rw [Scheduler.setMemory, Scheduler.onMachine, hmachine]
      rfl
    rw [hmachine', (hsteady.withMemory lifted).cycle_of_wait (hfetch.trans hwait)]
  rw [hcycle]
  exact Scheduler.stepAndWait_one_of_waiting (s := x.setMemory lifted) hlive hstatus harrivals
    hlifted

end Steady

end Installed

end Breakpoints
end RemoteDebugger
