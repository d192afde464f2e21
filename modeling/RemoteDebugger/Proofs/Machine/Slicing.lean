/-
# A run cut in two

A machine that is to run for long is run in slices.  Where a run is cut cannot be told from how
it ends: behind a run that has ended well the rest goes on as if there were no cut, and a run
that was ended early, by a trap or by waiting, would not have gone further with more cycles
(`Machine.run_add_of_ne`).  Nor is an interrupt lost or delivered twice: what a run delivers it
takes from the end of the queue, one interrupt for each cycle as long as there are any.

Both are put together in `Machine.runs_compose`.
-/
import RemoteDebugger.Proofs.Machine.Delivery

namespace RemoteDebugger
namespace Machine

variable {machine : Machine} {cycles : Nat}

/-- More cycles make no difference to a run that was ended early. -/
lemma run_add_of_ne (h : (machine.run cycles).1 ≠ .done) (more : Nat) :
    machine.run (cycles + more) = machine.run cycles := by
  induction cycles generalizing machine with
  | zero => exact absurd rfl h
  | succ cycles ih =>
    rw [Nat.add_right_comm]
    by_cases hdone : machine.cycle.1 = .done
    · have hcycle : machine.cycle = (.done, machine.cycle.2) := Prod.ext hdone rfl
      rw [run_succ_of_done hcycle] at h
      rw [run_succ_of_done hcycle, run_succ_of_done hcycle, ih h]
    · rw [run_succ_of_ne hdone, run_succ_of_ne hdone]

lemma run_add_eq_ite (i j : Nat) (machine : Machine) :
    machine.run (i + j) =
      if (machine.run i).1 = .done then (machine.run i).2.run j else machine.run i := by
  split
  · next hdone => exact run_add (Prod.ext hdone rfl) j
  · next hne => exact run_add_of_ne hne j

namespace Delivers

variable {count : Nat} {before after : Machine}

/-- The queue in two: what is left of it, and what has been taken from its end. -/
lemma exists_queue_eq (h : Delivers count before after) : ∃ taken,
    before.queue = after.queue ++ taken ∧ taken.length = min count before.queue.length ∧
      after.delivered = before.delivered ++ taken.reverse := by
  refine ⟨before.queue.drop (before.queue.length - count), ?_, ?_, h.delivered_eq⟩
  · rw [h.queue_eq, List.take_append_drop]
  · rw [List.length_drop]
    omega

/-- An interrupt is either on record or in the queue, before and after. -/
lemma perm (h : Delivers count before after) :
    (after.delivered ++ after.queue).Perm (before.delivered ++ before.queue) := by
  obtain ⟨taken, hqueue, -, hdelivered⟩ := h.exists_queue_eq
  rw [hqueue, hdelivered, List.append_assoc]
  have hreverse : (taken.reverse ++ after.queue).Perm (taken ++ after.queue) :=
    taken.reverse_perm.append_right after.queue
  exact (hreverse.trans List.perm_append_comm).append_left before.delivered

end Delivers

/-- A run of `i + j` cycles is a run of `i` and, if that has ended well, a run of `j` behind it.
A run of any length moves interrupts from the end of the queue to the record, the last one of the
queue first and one for each cycle that it goes through as long as there are any, and all others
stay. -/
theorem runs_compose (machine : Machine) :
    (∀ i j, machine.run (i + j) =
      if (machine.run i).1 = .done then (machine.run i).2.run j else machine.run i) ∧
    ∀ cycles, ∃ taken,
      machine.queue = (machine.run cycles).2.queue ++ taken ∧
      taken.length = min (executed cycles machine) machine.queue.length ∧
      (machine.run cycles).2.delivered = machine.delivered ++ taken.reverse ∧
      ((machine.run cycles).2.delivered ++ (machine.run cycles).2.queue).Perm
        (machine.delivered ++ machine.queue) := by
  refine ⟨fun i j => run_add_eq_ite i j machine, fun cycles => ?_⟩
  have hdelivers := delivers_run cycles machine
  obtain ⟨taken, hqueue, hlength, hdelivered⟩ := hdelivers.exists_queue_eq
  exact ⟨taken, hqueue, hlength, hdelivered, hdelivers.perm⟩

end Machine
end RemoteDebugger
