/-
# Cycles that are owed

A live scheduler that owes cycles and whose worker has nothing to do is kept from them by an
idle machine.  An interrupt always gives the worker its turn, after which nothing is owed,
and a caller that waits is released only when nothing is owed either (`Scheduler.Released`).
-/
import RemoteDebugger.Proofs.Scheduler.Frame

namespace RemoteDebugger
namespace Scheduler

variable {s t : Scheduler} {come : List Interrupt} {cycles : UInt32}

@[simp] lemma owed_setMemory (s : Scheduler) (memory : Memory) :
    (s.setMemory memory).owed = s.owed := rfl

lemma owed_of_ready (h : s.ready = true) : s.owed ≠ 0 := by
  intro hzero
  simp [ready, hzero] at h

lemma ready_of_owed (h : s.owed = 0) : s.ready = false := by
  simp [ready, h]

lemma waiting_of_ready (hlive : s.live = true) (howed : s.owed ≠ 0) (h : s.ready = false) :
    s.status = .waiting ∧ s.machine.queue = [] := by
  simp_all [ready, Machine.interruptPending]

lemma owed_of_poll {status : Status} (h : s.poll = .ok (some status)) : s.owed = 0 := by
  simp only [poll] at h
  split at h
  · cases h
  · split at h
    · assumption
    · cases h

/-! ### Interrupts -/

/-- Whoever asserts an interrupt sees to it that a cycle is owed. -/
lemma owed_assertLine (s : Scheduler) (irq : Interrupt) : (s.assertLine irq).owed ≠ 0 := by
  change (if s.owed = 0 then 1 else s.owed) ≠ 0
  split
  · decide
  · assumption

/-- The worker takes its turn on every interrupt. -/
lemma interrupt_eq (hlive : s.live = true) (irq : Interrupt) :
    s.interrupt irq =
      { s with
        machine := ((s.machine.interrupt irq).run (s.assertLine irq).owed.toNat).2
        status := ((s.machine.interrupt irq).run (s.assertLine irq).owed.toNat).1
        owed := 0 } := by
  have hready : (s.assertLine irq).ready = true := by
    have howed := owed_assertLine s irq
    have hpending : (s.assertLine irq).machine.interruptPending = true := by
      simp [assertLine, Machine.interrupt, Machine.interruptPending]
    have hlive : (s.assertLine irq).live = true := hlive
    simp [ready, howed, hpending, hlive]
  rw [interrupt, work, if_pos hready]
  rfl

/-- Of a scheduler that owes nothing every interrupt takes one cycle. -/
lemma machine_interrupts (hlive : s.live = true) (howed : s.owed = 0) (irqs : List Interrupt) :
    (irqs.foldl interrupt s).machine =
      irqs.foldl (fun machine irq => (machine.interrupt irq).cycle.2) s.machine := by
  induction irqs generalizing s with
  | nil => rfl
  | cons irq rest ih =>
    have hone : (s.assertLine irq).owed.toNat = 1 := by
      change (if s.owed = 0 then 1 else s.owed).toNat = 1
      rw [if_pos howed]
      rfl
    have hirq := interrupt_eq hlive irq
    rw [hone, Machine.run_one] at hirq
    rw [List.foldl_cons, List.foldl_cons, ih ((live_interrupt s irq).trans hlive) (by rw [hirq]),
      hirq]

/-! ### Callers that are released -/

/-- A caller that waits on the scheduler `s` has been released and has left `t`; these
interrupts have come while it was blocked. -/
inductive Released : List Interrupt → Scheduler → Scheduler → Prop where
  /-- There is nothing to wait for. -/
  | idle {s : Scheduler} (howed : s.owed = 0) (hstatus : s.status ≠ .waiting) : Released [] s s
  /-- The caller is blocked when an interrupt comes. -/
  | interrupted {s t : Scheduler} {irq : Interrupt} {rest come : List Interrupt}
    (hlive : s.live = true) (harrivals : s.arrivals = irq :: rest)
    (h : Released come ({ s with arrivals := rest }.interrupt irq) t) : Released (irq :: come) s t

lemma released_await {arrivals : List Interrupt} (harrivals : s.arrivals = arrivals)
    (hlive : (await arrivals s).2.live = true) : ∃ come, Released come s (await arrivals s).2 := by
  induction arrivals generalizing s with
  | nil =>
    have hs := (live_await [] s).1 hlive
    unfold await at hlive ⊢
    rw [if_neg (by simp [hs])] at hlive ⊢
    split
    · next hdone =>
      rw [Bool.and_eq_true, decide_eq_true_eq, bne_iff_ne] at hdone
      exact ⟨[], .idle hdone.1 hdone.2⟩
    · next hblocked =>
      -- nobody is left to release the caller
      rw [if_neg hblocked] at hlive
      cases hlive
  | cons irq rest ih =>
    have hs := (live_await (irq :: rest) s).1 hlive
    unfold await at hlive ⊢
    rw [if_neg (by simp [hs])] at hlive ⊢
    split
    · next hdone =>
      rw [Bool.and_eq_true, decide_eq_true_eq, bne_iff_ne] at hdone
      exact ⟨[], .idle hdone.1 hdone.2⟩
    · next hblocked =>
      rw [if_neg hblocked] at hlive
      obtain ⟨come, hcome⟩ := ih (s := { s with arrivals := rest }.interrupt irq)
        (arrivals_interrupt _ _) hlive
      exact ⟨irq :: come, .interrupted hs harrivals hcome⟩

lemma released_stepAndWait (hcycles : cycles ≠ 0)
    (hlive : (s.stepAndWait cycles).2.live = true) :
    ∃ come, Released come (s.step cycles) (s.stepAndWait cycles).2 := by
  unfold stepAndWait at hlive ⊢
  rw [if_neg hcycles] at hlive ⊢
  exact released_await (arrivals_step _ _) hlive

lemma Released.owed (h : Released come s t) : t.owed = 0 := by
  induction h with
  | idle howed _ => exact howed
  | interrupted _ _ _ ih => exact ih

lemma Released.arrivals (h : Released come s t) : s.arrivals = come ++ t.arrivals := by
  induction h with
  | idle => rfl
  | interrupted _ harrivals _ ih =>
    rw [harrivals, List.cons_append, ← ih, arrivals_interrupt]

lemma owed_stepAndWait (hcycles : cycles ≠ 0) (hlive : (s.stepAndWait cycles).2.live = true) :
    (s.stepAndWait cycles).2.owed = 0 := by
  obtain ⟨come, hcome⟩ := released_stepAndWait hcycles hlive
  exact hcome.owed

end Scheduler
end RemoteDebugger
