/-
# What becomes of interrupts

A cycle delivers at most one interrupt, of those in the queue the one that was asserted
last.  So a run that goes through some number of cycles (`Machine.executed`) takes that
many interrupts from the end of the queue, if there are as many, and puts them on record in
the order in which it has taken them (`Machine.delivers_run`).

A run of at least one cycle leaves a machine that waits exactly if waiting has ended it
(`Machine.run_fst_eq_waiting_iff`).
-/
import RemoteDebugger.Proofs.Machine.Cycle

namespace RemoteDebugger
namespace Machine

variable {machine : Machine} {cycles : Nat}

/-! ### Counting cycles -/

/-- How many cycles a run goes through, the one that ends it included. -/
def executed : Nat → Machine → Nat
  | 0, _ => 0
  | cycles + 1, machine =>
    match machine.cycle with
    | (.done, machine) => executed cycles machine + 1
    | _ => 1

lemma executed_succ_of_done {m : Machine} (h : machine.cycle = (.done, m)) :
    executed (cycles + 1) machine = executed cycles m + 1 := by
  rw [executed, h]

lemma executed_succ_of_ne (h : machine.cycle.1 ≠ .done) : executed (cycles + 1) machine = 1 := by
  rw [executed]
  split
  · next hdone => exact absurd (congrArg Prod.fst hdone) h
  · rfl

lemma run_succ_of_ne (h : machine.cycle.1 ≠ .done) : machine.run (cycles + 1) = machine.cycle := by
  rw [run]
  split
  · next hdone => exact absurd (congrArg Prod.fst hdone) h
  · next hcycle => exact hcycle.symm

/-- A run of some cycles goes through one at least. -/
lemma executed_pos (h : cycles ≠ 0) (machine : Machine) : 0 < executed cycles machine := by
  obtain ⟨n, rfl⟩ := Nat.exists_eq_succ_of_ne_zero h
  rw [executed]
  split
  · exact Nat.succ_pos _
  · exact Nat.one_pos

/-! ### Delivering -/

/-- On the way from one machine to another so many interrupts, or all there are, have been
taken from the end of the queue and put on record. -/
structure Delivers (count : Nat) (before after : Machine) : Prop where
  /-- The interrupts that were asserted first are left. -/
  queue_eq : after.queue = before.queue.take (before.queue.length - count)
  /-- The others are on record, beginning with the one that was asserted last. -/
  delivered_eq : after.delivered =
    before.delivered ++ (before.queue.drop (before.queue.length - count)).reverse

namespace Delivers

variable {before between after : Machine} {i j : Nat}

lemma zero (machine : Machine) : Delivers 0 machine machine := ⟨by simp, by simp⟩

lemma trans (h : Delivers i before between) (h' : Delivers j between after) :
    Delivers (i + j) before after := by
  have hlength : between.queue.length = before.queue.length - i := by
    rw [h.queue_eq, List.length_take]
    omega
  constructor
  · rw [h'.queue_eq, hlength, h.queue_eq, List.take_take]
    congr 1
    omega
  · -- what is taken second stands before what was taken first
    have hsplit : before.queue.drop (before.queue.length - (i + j)) =
        between.queue.drop (between.queue.length - j) ++
          before.queue.drop (before.queue.length - i) := by
      have hdrop := List.take_append_drop (before.queue.length - i - (before.queue.length - i - j))
        (before.queue.drop (before.queue.length - i - j))
      rw [List.drop_drop, ← List.drop_take] at hdrop
      rw [hlength, h.queue_eq, Nat.sub_add_eq, ← hdrop]
      congr 2
      omega
    rw [h'.delivered_eq, h.delivered_eq, hsplit, List.reverse_append, List.append_assoc]

/-- A machine that delivers enough has nothing left to deliver. -/
lemma queue_eq_nil (h : Delivers i before after) (hi : before.queue.length ≤ i) :
    after.queue = [] := by
  rw [h.queue_eq, Nat.sub_eq_zero_of_le hi, List.take_zero]

/-- With one interrupt in the queue there is no question of the order. -/
lemma append_queue (h : Delivers i before after) (hi : before.queue.length ≤ i)
    (hlength : before.queue.length ≤ 1) :
    after.delivered = before.delivered ++ before.queue := by
  rw [h.delivered_eq, Nat.sub_eq_zero_of_le hi, List.drop_zero]
  generalize before.queue = queue at hlength
  rcases queue with _ | ⟨irq, _ | ⟨other, rest⟩⟩
  · rfl
  · rfl
  · exact absurd hlength (by simp)

end Delivers

lemma delivers_deliver (machine : Machine) : Delivers 1 machine machine.deliver := by
  rcases List.eq_nil_or_concat machine.queue with hnil | ⟨earlier, irq, hqueue⟩
  · constructor
    · simp [deliver, hnil]
    · simp [deliver, hnil]
  · constructor
    · simp [deliver, hqueue]
    · simp [deliver, hqueue]

lemma delivers_cycle (machine : Machine) : Delivers 1 machine machine.cycle.2 := by
  have hdeliver := delivers_deliver machine
  simp only [cycle]
  split
  · exact hdeliver
  · split
    · exact hdeliver
    · split
      · exact ⟨hdeliver.queue_eq, hdeliver.delivered_eq⟩
      · exact ⟨hdeliver.queue_eq, hdeliver.delivered_eq⟩

/-- A run delivers one interrupt for each cycle that it goes through. -/
theorem delivers_run (cycles : Nat) (machine : Machine) :
    Delivers (executed cycles machine) machine (machine.run cycles).2 := by
  induction cycles generalizing machine with
  | zero => exact .zero machine
  | succ cycles ih =>
    have hfirst := delivers_cycle machine
    rcases hcycle : machine.cycle with ⟨status, m⟩
    by_cases hdone : status = .done
    · subst hdone
      rw [hcycle] at hfirst
      rw [run_succ_of_done hcycle, executed_succ_of_done hcycle, Nat.add_comm]
      exact hfirst.trans (ih m)
    · have hne : machine.cycle.1 ≠ .done := by rwa [hcycle]
      rw [run_succ_of_ne hne, executed_succ_of_ne hne]
      exact hfirst

/-! ### Waiting -/

lemma cycle_fst_eq_waiting_iff (machine : Machine) :
    machine.cycle.1 = .waiting ↔ machine.cycle.2.waiting = true := by
  refine ⟨waiting_of_cycle, ?_⟩
  simp only [cycle]
  split
  · exact fun _ => rfl
  · next hwaiting =>
    split
    · exact fun h => absurd h hwaiting
    · split
      · exact fun _ => rfl
      · exact fun h => absurd h hwaiting

/-- After a run of some cycles the machine waits exactly if waiting has ended the run. -/
theorem run_fst_eq_waiting_iff (h : cycles ≠ 0) (machine : Machine) :
    (machine.run cycles).1 = .waiting ↔ (machine.run cycles).2.waiting = true := by
  refine ⟨waiting_of_run, fun hwaiting => ?_⟩
  induction cycles generalizing machine with
  | zero => exact absurd rfl h
  | succ cycles ih =>
    have hcycle := cycle_fst_eq_waiting_iff machine
    by_cases hdone : machine.cycle.1 = .done
    · have heq : machine.cycle = (.done, machine.cycle.2) := Prod.ext hdone rfl
      rw [run_succ_of_done heq] at hwaiting ⊢
      rcases Nat.eq_zero_or_pos cycles with rfl | hpos
      · -- the last cycle has ended well, so the machine does not wait
        exact absurd ((hcycle.2 hwaiting).symm.trans hdone) (by decide)
      · exact ih (Nat.ne_of_gt hpos) _ hwaiting
    · rw [run_succ_of_ne hdone] at hwaiting ⊢
      exact hcycle.2 hwaiting

end Machine
end RemoteDebugger
