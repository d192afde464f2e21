/-
# Two machines in lockstep

The machine under the debugger has traps in its memory; the *plain* machine has the words
under them instead.  As long as the plain machine does not come to a breakpoint or to a trap
of its own, both do the same, cycle after cycle; and where it does come to one, the machine
under the debugger ends its run.
-/
import RemoteDebugger.Proofs.Breakpoint.Installed
import RemoteDebugger.Proofs.Machine.Cycle

namespace RemoteDebugger
namespace Breakpoints

/-- A debugger stops here: on a breakpoint or on a trap of the program. -/
def Stops (t : Breakpoints) (machine : Machine) : Prop :=
  t.contains machine.pc = true ∨ machine.fetch = trapWord

instance (t : Breakpoints) (machine : Machine) : Decidable (t.Stops machine) :=
  inferInstanceAs (Decidable (_ ∨ _))

/-- Here a word is executed and the next one comes to be executed. -/
structure Passes (t : Breakpoints) (machine : Machine) : Prop where
  /-- There is no reason to stop. -/
  not_stops : ¬ t.Stops machine
  /-- The word is not a wait. -/
  ne_wait : machine.fetch ≠ waitWord

variable {t : Breakpoints} {m : Memory} {machine : Machine}

/-- On a breakpoint the machine with the traps is on a trap. -/
lemma Installed.fetch_of_contains (ht : t.Installed m) (h : t.contains machine.pc = true) :
    (machine.withMemory m).fetch = trapWord := by
  have htrap : m.word? machine.pc = some trapWord := ht.trapped _ (contains_iff.1 h)
  change (m.word? machine.pc).getD 0 = trapWord
  rw [htrap]
  rfl

/-- Elsewhere it is on the same word as the plain machine. -/
lemma Installed.fetch_of_not_contains (ht : t.Installed m) (hplain : machine.memory = t.plain m)
    (haligned : machine.pc.toNat % 4 = 0) (h : ¬ t.contains machine.pc = true) :
    (machine.withMemory m).fetch = machine.fetch := by
  have hunder : t.wordUnder? machine.pc = none := by
    rw [Option.eq_none_iff_forall_ne_some]
    exact fun word hword => h (contains_iff.2 (mem_keys_iff.2 ⟨word, hword⟩))
  simp only [Machine.fetch]
  rw [hplain, ht.word?_plain haligned, hunder]
  rfl

/-! ### One cycle -/

lemma Installed.cycle_of_stops (ht : t.Installed m) (hplain : machine.memory = t.plain m)
    (hsteady : machine.Steady) (h : t.Stops machine) :
    (machine.withMemory m).cycle = (.breakpoint, machine.withMemory m) := by
  refine (hsteady.withMemory m).cycle_of_trap ?_
  by_cases hcontains : t.contains machine.pc = true
  · exact ht.fetch_of_contains hcontains
  · rw [ht.fetch_of_not_contains hplain hsteady.aligned hcontains]
    exact h.resolve_left hcontains

lemma Installed.cycle_of_passes (ht : t.Installed m) (hplain : machine.memory = t.plain m)
    (hsteady : machine.Steady) (h : t.Passes machine) :
    (machine.withMemory m).cycle = (.done, (machine.after 1).withMemory m) := by
  obtain ⟨hcontains, htrap⟩ := not_or.1 h.not_stops
  have hsize : m.size = machine.memory.size := by rw [hplain, size_plain]
  rw [hsteady.cycle_withMemory hsize
    (ht.fetch_of_not_contains hplain hsteady.aligned hcontains) h.ne_wait, Machine.after_succ,
    Machine.after_zero, hsteady.cycle_of_ne htrap h.ne_wait]

/-! ### Runs -/

/-- Both machines do the same as long as there is no reason to stop. -/
lemma Installed.run_of_passes (ht : t.Installed m) (hplain : machine.memory = t.plain m)
    (hsteady : machine.Steady) {cycles : Nat} (h : ∀ i < cycles, t.Passes (machine.after i)) :
    (machine.withMemory m).run cycles = (.done, (machine.after cycles).withMemory m) := by
  induction cycles generalizing machine with
  | zero => rfl
  | succ cycles ih =>
    have hfirst : t.Passes machine := h 0 (by omega)
    have hsteady' : (machine.after 1).Steady := by
      refine hsteady.after fun i hi => ?_
      exact (h i (by omega)).ne_wait
    have hrest (i : Nat) (hi : i < cycles) : t.Passes ((machine.after 1).after i) := by
      rw [← Machine.after_add]
      exact h (1 + i) (by omega)
    rw [Machine.run_succ_of_done (ht.cycle_of_passes hplain hsteady hfirst),
      ih ((machine.memory_after 1).trans hplain) hsteady' hrest, ← Machine.after_add, Nat.add_comm]

/-- A run that is long enough ends at the first reason to stop. -/
lemma Installed.run_of_stops (ht : t.Installed m) (hplain : machine.memory = t.plain m)
    (hsteady : machine.Steady) {k cycles : Nat} (hk : k < cycles)
    (h : ∀ i < k, t.Passes (machine.after i)) (hstop : t.Stops (machine.after k)) :
    (machine.withMemory m).run cycles = (.breakpoint, (machine.after k).withMemory m) := by
  obtain ⟨more, rfl⟩ := Nat.exists_eq_add_of_lt hk
  have hsteady' : (machine.after k).Steady := hsteady.after fun i hi => (h i hi).ne_wait
  rw [Nat.add_assoc, Machine.run_add (ht.run_of_passes hplain hsteady h)]
  exact Machine.run_succ_of_breakpoint
    (ht.cycle_of_stops ((machine.memory_after k).trans hplain) hsteady' hstop)

end Breakpoints
end RemoteDebugger
