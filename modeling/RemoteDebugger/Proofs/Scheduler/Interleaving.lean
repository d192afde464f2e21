/-
# Interrupts that are left behind

The calls of a scheduler and the turns of its worker exclude one another, and in what order
they come is not fixed.  An interrupt that comes while no cycles are owed makes one owed, so
that it will not be left behind; but the next one, if it comes before the worker's turn,
finds that cycle owed and adds none.  The worker then executes one cycle, which delivers one
interrupt, and the other is left in the queue with nothing owed.

So interrupts are left behind, and this is how it always happens
(`Scheduler.stranded_iff_hurried_turn`): a turn of the worker goes through fewer cycles than
there are interrupts, and since then there were only turns in which there was nothing to do.
-/
import Mathlib.Data.List.Induction
import RemoteDebugger.Proofs.Machine.Delivery
import RemoteDebugger.Proofs.Scheduler.Owed

namespace RemoteDebugger
namespace Scheduler

/-! ### Sections -/

/-- What is done to a scheduler without anything else in between. -/
inductive Section where
  /-- Cycles are asked for. -/
  | request (cycles : UInt32) (ne_zero : cycles ≠ 0)
  /-- A device asserts an interrupt. -/
  | assertLine (irq : Interrupt)
  /-- The machine is switched off and on again. -/
  | reset
  /-- The worker takes its turn. -/
  | work

/-- One section. -/
def perform (s : Scheduler) : Section → Scheduler
  | .request cycles _ => s.request cycles
  | .assertLine irq => s.assertLine irq
  | .reset => s.reset
  | .work => s.work

/-- One section after another. -/
def performAll (s : Scheduler) (sections : List Section) : Scheduler := sections.foldl perform s

variable {s : Scheduler}

lemma performAll_concat (s : Scheduler) (sections : List Section) (c : Section) :
    s.performAll (sections ++ [c]) = (s.performAll sections).perform c := by
  rw [performAll, List.foldl_append]
  rfl

lemma live_performAll (h : s.live = true) (sections : List Section) :
    (s.performAll sections).live = true := by
  induction sections generalizing s with
  | nil => exact h
  | cons c sections ih =>
    refine ih ?_
    cases c with
    | work => exact (live_work s).trans h
    | _ => exact h

/-! ### Turns -/

/-- There are interrupts in the queue and no cycles in which they could be delivered. -/
def Stranded (s : Scheduler) : Prop := s.owed = 0 ∧ s.machine.queue ≠ []

/-- The worker's turn is next and will go through fewer cycles than there are interrupts. -/
def Hurried (s : Scheduler) : Prop :=
  s.ready = true ∧ s.machine.executed s.owed.toNat < s.machine.queue.length

lemma not_stranded_of_owed (h : s.owed ≠ 0) : ¬s.Stranded := fun hstranded => h hstranded.1

/-- A turn leaves interrupts behind if it is too short, or if they were left behind before. -/
lemma stranded_work_iff : s.work.Stranded ↔ s.Hurried ∨ s.Stranded := by
  by_cases hready : s.ready = true
  · have howed := owed_of_ready hready
    have hqueue : s.work.machine.queue =
        s.machine.queue.take (s.machine.queue.length - s.machine.executed s.owed.toNat) := by
      rw [work, if_pos hready]
      exact (Machine.delivers_run s.owed.toNat s.machine).queue_eq
    have hzero : s.work.owed = 0 := by
      rw [work, if_pos hready]
    rw [Stranded, Hurried, hzero, hqueue, ← List.length_pos_iff, List.length_take,
      or_iff_left (not_stranded_of_owed howed)]
    simp only [hready, true_and]
    omega
  · rw [work, if_neg hready, or_iff_right fun hhurried => hready hhurried.1]

/-! ### The last turns -/

variable {P : List Section → Prop} {sections : List Section} {c : Section}

lemma exists_turns_concat_iff :
    (∃ before idle, sections ++ [c] = before ++ List.replicate (idle + 1) .work ∧ P before) ↔
      c = .work ∧ (P sections ∨
        ∃ before idle, sections = before ++ List.replicate (idle + 1) .work ∧ P before) := by
  constructor
  · rintro ⟨before, idle, hsections, hP⟩
    rw [List.replicate_succ', ← List.append_assoc, List.append_singleton_inj] at hsections
    obtain ⟨rfl, rfl⟩ := hsections
    refine ⟨rfl, ?_⟩
    cases idle with
    | zero => exact .inl (by rwa [List.replicate_zero, List.append_nil])
    | succ idle => exact .inr ⟨before, idle, rfl, hP⟩
  · rintro ⟨rfl, hP | ⟨before, idle, rfl, hP⟩⟩
    · exact ⟨sections, 0, rfl, hP⟩
    · exact ⟨before, idle + 1, by rw [List.append_assoc, ← List.replicate_succ'], hP⟩

/-- A scheduler starts with nothing to deliver, and its sections are performed in any order.
Interrupts are then left in the queue with no cycles owed exactly if a turn of the worker
has gone through fewer cycles than there were interrupts, and nothing but turns came after
it. -/
theorem stranded_iff_hurried_turn (machine : Machine) (hqueue : machine.queue = [])
    (sections : List Section) :
    let s : Scheduler := { machine }
    (s.performAll sections).live = true ∧
      ((s.performAll sections).owed = 0 ∧ (s.performAll sections).machine.queue ≠ [] ↔
        ∃ before idle, sections = before ++ List.replicate (idle + 1) .work ∧
          (s.performAll before).Hurried) := by
  intro s
  refine ⟨live_performAll rfl sections, ?_⟩
  change (s.performAll sections).Stranded ↔ _
  induction sections using List.reverseRecOn with
  | nil =>
    refine ⟨fun hstranded => absurd hqueue hstranded.2, ?_⟩
    rintro ⟨before, idle, hnil, -⟩
    rw [List.replicate_succ', ← List.append_assoc] at hnil
    exact absurd hnil.symm (List.concat_ne_nil _ _)
  | append_singleton sections c ih =>
    rw [exists_turns_concat_iff, performAll_concat]
    -- only a turn can leave something behind
    cases c with
    | work =>
      rw [← ih, eq_self, true_and]
      exact stranded_work_iff
    | request cycles ne_zero =>
      exact iff_of_false (not_stranded_of_owed ne_zero) fun h => by cases h.1
    | assertLine irq =>
      refine iff_of_false (not_stranded_of_owed ?_) fun h => by cases h.1
      exact owed_assertLine _ irq
    | reset => exact iff_of_false (fun hstranded => hstranded.2 rfl) fun h => by cases h.1

/-- The machine stands on a trap, which ends the run of five cycles with the first.  The
worker's second turn does not help. -/
theorem stranded_at_trap :
    let machine := Machine.create 16 [0xef, 0xee, 0xbe, 0xef]
    let before : List Section :=
      [.request 5 (by decide), .assertLine ⟨1, 0⟩, .assertLine ⟨2, 0⟩]
    let s := ({ machine } : Scheduler).performAll (before ++ [.work, .work])
    machine.queue = [] ∧ s.live = true ∧ s.owed = 0 ∧ s.machine.queue ≠ [] := by
  intro machine before
  dsimp only
  have hqueue : machine.queue = [] := by decide +kernel
  have hhurried : (({ machine } : Scheduler).performAll before).Hurried :=
    ⟨by decide +kernel, by decide +kernel⟩
  obtain ⟨hlive, hstranded⟩ := stranded_iff_hurried_turn machine hqueue (before ++ [.work, .work])
  exact ⟨hqueue, hlive, hstranded.2 ⟨before, 1, rfl, hhurried⟩⟩

/-- Two interrupts come before the worker's turn; the one that came first is left behind. -/
theorem interrupt_left_behind :
    let s := ({ machine := Machine.create 16 [] } : Scheduler).performAll
      [.assertLine ⟨1, 0⟩, .assertLine ⟨2, 0⟩, .work]
    s.live = true ∧ s.owed = 0 ∧ s.machine.queue = [⟨1, 0⟩] ∧
      s.machine.delivered = [⟨2, 0⟩] := by
  decide +kernel

end Scheduler
end RemoteDebugger
