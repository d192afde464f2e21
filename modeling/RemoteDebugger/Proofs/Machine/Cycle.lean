/-
# One cycle after another

A machine that neither waits nor has an interrupt to deliver only moves its program counter:
on from word to word, until it stands on a trap or has executed a wait.  The program
counter of such a *steady* machine stays aligned if it is, and what a cycle does depends on
memory only through the word that is fetched and the size of memory.
-/
import Mathlib.Logic.Function.Iterate
import RemoteDebugger.Proofs.Scheduler.Frame

namespace RemoteDebugger
namespace Machine

/-- A machine after so many single cycles. -/
def after (machine : Machine) (cycles : Nat) : Machine := (fun m => (m.run 1).2)^[cycles] machine

@[simp] lemma after_zero (machine : Machine) : machine.after 0 = machine := rfl

lemma after_succ (machine : Machine) (cycles : Nat) :
    machine.after (cycles + 1) = (machine.after cycles).cycle.2 := by
  rw [after, Function.iterate_succ_apply', run_one]
  rfl

lemma after_add (machine : Machine) (i j : Nat) :
    machine.after (i + j) = (machine.after i).after j := by
  simp only [after]
  rw [Nat.add_comm, Function.iterate_add_apply]

lemma contents_after (machine : Machine) (cycles : Nat) :
    (machine.after cycles).contents = machine.contents := by
  induction cycles with
  | zero => rfl
  | succ cycles ih => rw [after_succ, contents_cycle, ih]

lemma memory_after (machine : Machine) (cycles : Nat) :
    (machine.after cycles).memory = machine.memory :=
  congrArg Prod.fst (contents_after machine cycles)

/-! ### The program counter -/

lemma pc_setPc (machine : Machine) (value : UInt32) : (machine.setPc value).pc = value := by
  simp only [setPc, setRegister, pc]
  simp

lemma aligned_nextPc {machine : Machine} (h : machine.pc.toNat % 4 = 0) :
    machine.nextPc.toNat % 4 = 0 := by
  simp only [nextPc]
  split
  · rfl
  · rw [UInt32.toNat_add]
    change (machine.pc.toNat + 4) % 2 ^ 32 % 4 = 0
    omega

/-! ### Steady machines -/

/-- A machine that only moves its program counter, from word to word. -/
structure Steady (machine : Machine) : Prop where
  /-- It does not wait. -/
  waiting : machine.waiting = false
  /-- There is no interrupt to deliver. -/
  queue : machine.queue = []
  /-- The program counter stands on a word. -/
  aligned : machine.pc.toNat % 4 = 0

variable {machine : Machine}

lemma deliver_of_queue (h : machine.queue = []) : machine.deliver = machine := by
  simp only [deliver]
  rw [h]
  rfl

namespace Steady

lemma cycle_of_trap (h : machine.Steady) (htrap : machine.fetch = trapWord) :
    machine.cycle = (.breakpoint, machine) := by
  unfold cycle
  rw [deliver_of_queue h.queue]
  dsimp only
  rw [h.waiting, if_neg Bool.false_ne_true, if_pos htrap]

lemma cycle_of_ne (h : machine.Steady) (htrap : machine.fetch ≠ trapWord)
    (hwait : machine.fetch ≠ waitWord) :
    machine.cycle = (.done, machine.setPc machine.nextPc) := by
  unfold cycle
  rw [deliver_of_queue h.queue]
  dsimp only
  rw [h.waiting, if_neg Bool.false_ne_true, if_neg htrap, if_neg hwait]

lemma cycle_of_wait (h : machine.Steady) (hwait : machine.fetch = waitWord) :
    machine.cycle = (.waiting, { machine.setPc machine.nextPc with waiting := true }) := by
  have htrap : machine.fetch ≠ trapWord := by
    rw [hwait]
    decide
  unfold cycle
  rw [deliver_of_queue h.queue]
  dsimp only
  rw [h.waiting, if_neg Bool.false_ne_true, if_neg htrap, if_pos hwait]

lemma cycle_ne_waiting (h : machine.Steady) (hwait : machine.fetch ≠ waitWord) :
    machine.cycle.1 ≠ .waiting := by
  by_cases htrap : machine.fetch = trapWord
  · rw [h.cycle_of_trap htrap]
    exact (by decide : Status.breakpoint ≠ .waiting)
  · rw [h.cycle_of_ne htrap hwait]
    exact (by decide : Status.done ≠ .waiting)

/-- Whether a cycle ends with waiting is up to the word. -/
lemma cycle_ne_waiting_iff (h : machine.Steady) :
    machine.cycle.1 ≠ .waiting ↔ machine.fetch ≠ waitWord := by
  refine ⟨fun hne hwait => hne ?_, h.cycle_ne_waiting⟩
  rw [h.cycle_of_wait hwait]

/-- A steady machine stays steady unless it executes a wait. -/
lemma cycle (h : machine.Steady) (hwait : machine.fetch ≠ waitWord) :
    machine.cycle.2.Steady := by
  by_cases htrap : machine.fetch = trapWord
  · rw [h.cycle_of_trap htrap]
    exact h
  · rw [h.cycle_of_ne htrap hwait]
    refine ⟨h.waiting, h.queue, ?_⟩
    rw [pc_setPc]
    exact aligned_nextPc h.aligned

lemma after (h : machine.Steady) {cycles : Nat}
    (hwait : ∀ i < cycles, (machine.after i).fetch ≠ waitWord) :
    (machine.after cycles).Steady := by
  induction cycles with
  | zero => exact h
  | succ cycles ih =>
    rw [after_succ]
    exact (ih fun i hi => hwait i (by omega)).cycle (hwait cycles (by omega))

/-- As long as no word is a wait, no cycle ends with waiting, and the other way round. -/
lemma forall_cycle_ne_waiting_iff (h : machine.Steady) {n : Nat} :
    (∀ i < n, (machine.after i).cycle.1 ≠ .waiting) ↔
      ∀ i < n, (machine.after i).fetch ≠ waitWord := by
  refine ⟨fun hne i => ?_, fun hwait i hi => ?_⟩
  · induction i using Nat.strongRecOn with
    | ind i ih =>
      intro hi
      exact (h.after fun j hj => ih j hj (by omega)).cycle_ne_waiting_iff.1 (hne i hi)
  · exact (h.after fun j hj => hwait j (by omega)).cycle_ne_waiting (hwait i hi)

end Steady

/-! ### Other memory -/

/-- The machine with other memory. -/
def withMemory (machine : Machine) (memory : Memory) : Machine := { machine with memory }

lemma Steady.withMemory (h : machine.Steady) (memory : Memory) :
    (machine.withMemory memory).Steady :=
  ⟨h.waiting, h.queue, h.aligned⟩

/-- In other memory of the same size a cycle that executes the same word does the same. -/
lemma Steady.cycle_withMemory (h : machine.Steady) {memory : Memory}
    (hsize : memory.size = machine.memory.size)
    (hfetch : (machine.withMemory memory).fetch = machine.fetch)
    (hwait : machine.fetch ≠ waitWord) :
    (machine.withMemory memory).cycle = (machine.cycle.1, machine.cycle.2.withMemory memory) := by
  have h' := h.withMemory memory
  by_cases htrap : machine.fetch = trapWord
  · rw [h.cycle_of_trap htrap, h'.cycle_of_trap (hfetch.trans htrap)]
  · rw [h.cycle_of_ne htrap hwait, h'.cycle_of_ne (hfetch ▸ htrap) (hfetch ▸ hwait)]
    have hnext : (machine.withMemory memory).nextPc = machine.nextPc := by
      simp only [nextPc]
      rw [show (machine.withMemory memory).memory.size = machine.memory.size from hsize]
      rfl
    rw [hnext]
    rfl

/-! ### Runs -/

/-- A run goes on after a cycle that has ended well. -/
lemma run_succ_of_done {cycles : Nat} {m : Machine} (h : machine.cycle = (.done, m)) :
    machine.run (cycles + 1) = m.run cycles := by
  rw [run, h]

/-- A run that has ended well may be followed by another. -/
lemma run_add {cycles : Nat} {m : Machine} (h : machine.run cycles = (.done, m)) (more : Nat) :
    machine.run (cycles + more) = m.run more := by
  induction cycles generalizing machine with
  | zero =>
    obtain rfl : machine = m := congrArg Prod.snd h
    rw [Nat.zero_add]
  | succ cycles ih =>
    rcases hcycle : machine.cycle with ⟨status, next⟩
    rw [run, hcycle] at h
    cases status with
    | done =>
      rw [Nat.add_right_comm, run_succ_of_done hcycle]
      exact ih h
    | breakpoint => cases h
    | waiting => cases h

lemma run_succ_of_breakpoint {cycles : Nat} {m : Machine} (h : machine.cycle = (.breakpoint, m)) :
    machine.run (cycles + 1) = (.breakpoint, m) := by
  rw [run, h]

end Machine
end RemoteDebugger
