/-
# The scheduler between two calls

The status of a scheduler is a copy: it tells how the last turn of the worker ended, while
the machine knows for itself whether it waits.  A machine that is switched on, and is then
used through the calls of its scheduler only, never sees the two differ between calls
(`Scheduler.settled_after_calls`).  At such a moment no interrupt is in the queue, those on
record are the ones that have been asserted, in their order, and cycles are owed only by a
machine that waits.

That the order is kept is not the machine's merit, which delivers the last interrupt first:
each interrupt here has the worker's turn right behind it, so there is never more than one.
-/
import RemoteDebugger.Proofs.Machine.Delivery
import RemoteDebugger.Proofs.Scheduler.Owed

namespace RemoteDebugger
namespace Scheduler

/-! ### Calls -/

/-- A call of the scheduler. -/
inductive Call where
  /-- Ask for cycles. -/
  | step (cycles : UInt32)
  /-- Ask for cycles and wait for them, while devices assert interrupts as long as the
  caller is blocked. -/
  | stepAndWait (cycles : UInt32) (arrivals : List Interrupt)
  /-- Ask whether cycles are owed. -/
  | poll
  /-- Assert an interrupt. -/
  | interrupt (irq : Interrupt)
  /-- Owe nothing any more. -/
  | cancel
  /-- Switch the machine off and on again. -/
  | reset
  /-- Look at the machine and change its registers and memory. -/
  | change (f : Machine → Registers × Memory)

/-- The state that a call leaves, before the worker takes its turn. -/
def call (s : Scheduler) : Call → Scheduler
  | .step cycles => s.request cycles
  | .stepAndWait cycles arrivals => ({ s with arrivals }.stepAndWait cycles).2
  | .poll => s
  | .interrupt irq => s.assertLine irq
  | .cancel => s.cancel
  | .reset => s.reset
  | .change f =>
    s.onMachine fun machine => { machine with registers := (f machine).1, memory := (f machine).2 }

/-- A call and the worker's turn behind it. -/
def serve (s : Scheduler) (c : Call) : Scheduler := (s.call c).work

/-- One call after another. -/
def serveAll (s : Scheduler) (calls : List Call) : Scheduler := calls.foldl serve s

/-- The interrupts that are asserted in the course of a call.  Of those that might come
while a caller is blocked these are the ones that come before it is released. -/
def asserted (s : Scheduler) : Call → List Interrupt
  | .interrupt irq => [irq]
  | .stepAndWait cycles arrivals =>
    arrivals.take (arrivals.length - ({ s with arrivals }.stepAndWait cycles).2.arrivals.length)
  | _ => []

/-- The interrupts that are asserted in the course of several calls. -/
def assertedBy : Scheduler → List Call → List Interrupt
  | _, [] => []
  | s, c :: calls => s.asserted c ++ assertedBy (s.serve c) calls

variable {s : Scheduler} {g : List Interrupt}

lemma live_of_live_call {c : Call} (h : (s.call c).live = true) : s.live = true := by
  cases c with
  | stepAndWait cycles arrivals => exact live_of_live_stepAndWait (s := { s with arrivals }) h
  | _ => exact h

lemma live_of_live_serveAll {calls : List Call} (h : (s.serveAll calls).live = true) :
    s.live = true := by
  induction calls generalizing s with
  | nil => exact h
  | cons c calls ih => exact live_of_live_call ((live_work _).symm.trans (ih h))

/-! ### Before and after the worker's turn -/

/-- A scheduler whose worker may have a turn to take, when the interrupts `g` have been
asserted.  The turn delivers the one that is in the queue. -/
structure Due (s : Scheduler) (g : List Interrupt) : Prop where
  /-- The status tells whether the machine waits. -/
  status_iff : s.status = .waiting ↔ s.machine.waiting = true
  /-- Interrupts are on record or in the queue. -/
  delivered_append : s.machine.delivered ++ s.machine.queue = g
  /-- At most one is in the queue. -/
  length_queue : s.machine.queue.length ≤ 1
  /-- For that one a cycle is owed. -/
  owed : s.machine.queue ≠ [] → s.owed ≠ 0

/-- A scheduler whose worker has nothing to do, when the interrupts `g` have been asserted. -/
structure Resting (s : Scheduler) (g : List Interrupt) : Prop where
  /-- The status tells whether the machine waits. -/
  status_iff : s.status = .waiting ↔ s.machine.waiting = true
  /-- All interrupts are on record. -/
  delivered : s.machine.delivered = g
  /-- None is in the queue. -/
  queue : s.machine.queue = []
  /-- The worker has nothing to do. -/
  ready : s.ready = false

/-- The worker's turn brings a scheduler to rest. -/
lemma Due.work (h : s.Due g) (hlive : s.live = true) : s.work.Resting g := by
  have hrest := ready_work s
  simp only [Scheduler.work] at hrest ⊢
  split
  · next hready =>
    rw [if_pos hready] at hrest
    have howed : s.owed.toNat ≠ 0 := fun hzero => owed_of_ready hready (UInt32.toNat_inj.1 hzero)
    have hdelivers := Machine.delivers_run s.owed.toNat s.machine
    have hlength := Nat.le_trans h.length_queue (Machine.executed_pos howed s.machine)
    exact
      { status_iff := Machine.run_fst_eq_waiting_iff howed s.machine
        delivered := (hdelivers.append_queue hlength h.length_queue).trans h.delivered_append
        queue := hdelivers.queue_eq_nil hlength
        ready := hrest }
  · next hready =>
    -- a cycle that is owed for an interrupt is reason enough for a turn
    have hqueue : s.machine.queue = [] := by
      by_contra hne
      exact hready (by simp [Scheduler.ready, hlive, h.owed hne, Machine.interruptPending, hne])
    refine ⟨h.status_iff, ?_, hqueue, by simpa using hready⟩
    rw [← h.delivered_append, hqueue, List.append_nil]

/-! ### The calls -/

namespace Resting

lemma due (h : s.Resting g) : s.Due g where
  status_iff := h.status_iff
  delivered_append := by rw [h.queue, h.delivered, List.append_nil]
  length_queue := by rw [h.queue]; exact Nat.zero_le 1
  owed hne := absurd h.queue hne

lemma request (h : s.Resting g) (cycles : UInt32) : (s.request cycles).Due g :=
  { h.due with owed := fun hne => absurd h.queue hne }

lemma assertLine (h : s.Resting g) (irq : Interrupt) : (s.assertLine irq).Due (g ++ [irq]) where
  status_iff := h.status_iff
  delivered_append := by
    change s.machine.delivered ++ (s.machine.queue ++ [irq]) = g ++ [irq]
    rw [h.queue, h.delivered, List.nil_append]
  length_queue := by
    change (s.machine.queue ++ [irq]).length ≤ 1
    rw [h.queue]
    exact Nat.le_refl 1
  owed _ := owed_assertLine s irq

lemma cancel (h : s.Resting g) : s.cancel.Due g :=
  { h.due with owed := fun hne => absurd h.queue hne }

lemma reset (h : s.Resting g) : s.reset.Due g where
  status_iff := ⟨fun hstatus => (by cases hstatus), fun hwaiting => (by cases hwaiting)⟩
  delivered_append := (List.append_nil _).trans h.delivered
  length_queue := Nat.zero_le 1
  owed hne := absurd rfl hne

/-- A caller that is released leaves a scheduler at rest. -/
lemma released {come : List Interrupt} {t : Scheduler} (h : s.Resting g)
    (hreleased : Released come s t) : t.Resting (g ++ come) := by
  induction hreleased generalizing g with
  | idle => rwa [List.append_nil]
  | @interrupted s _ irq rest _ hlive _ _ ih =>
    have hirq : ({ s with arrivals := rest }.interrupt irq).Resting (g ++ [irq]) :=
      Due.work (assertLine (s := { s with arrivals := rest }) ⟨h.1, h.2, h.3, h.4⟩ irq) hlive
    rw [List.append_cons]
    exact ih hirq

lemma stepAndWait (h : s.Resting g) {cycles : UInt32}
    (hlive : (s.stepAndWait cycles).2.live = true) :
    ∃ come, s.arrivals = come ++ (s.stepAndWait cycles).2.arrivals ∧
      (s.stepAndWait cycles).2.Resting (g ++ come) := by
  by_cases hcycles : cycles = 0
  · simp only [Scheduler.stepAndWait, hcycles, if_true]
    exact ⟨[], rfl, by rwa [List.append_nil]⟩
  · have hs : s.live = true := live_of_live_stepAndWait hlive
    have hstep := (h.request cycles).work hs
    obtain ⟨come, hcome⟩ := released_stepAndWait hcycles hlive
    exact ⟨come, (arrivals_step _ _).symm.trans hcome.arrivals, hstep.released hcome⟩

lemma change (h : s.Resting g) (f : Machine → Registers × Memory) :
    (s.call (.change f)).Due g :=
  { h.due with owed := fun hne => absurd h.queue hne }

end Resting

/-- Whatever is called, the scheduler is at rest again after the worker's turn. -/
lemma Resting.serve (h : s.Resting g) {c : Call} (hlive : (s.serve c).live = true) :
    (s.serve c).Resting (g ++ s.asserted c) := by
  have hcall : (s.call c).live = true := (live_work _).symm.trans hlive
  suffices hdue : (s.call c).Due (g ++ s.asserted c) from hdue.work hcall
  cases c with
  | interrupt irq => exact h.assertLine irq
  | stepAndWait cycles arrivals =>
    obtain ⟨come, harrivals, hcome⟩ := Resting.stepAndWait (s := { s with arrivals })
      ⟨h.status_iff, h.delivered, h.queue, h.ready⟩ hcall
    have hasserted : s.asserted (.stepAndWait cycles arrivals) = come := by
      have hlength := congrArg List.length harrivals
      rw [List.length_append] at hlength
      simp only [asserted]
      rw [hlength, Nat.add_sub_cancel]
      exact (congrArg (List.take come.length) harrivals).trans List.take_left
    rw [hasserted]
    exact hcome.due
  | step cycles => exact (List.append_nil g).symm ▸ h.request cycles
  | poll => exact (List.append_nil g).symm ▸ h.due
  | cancel => exact (List.append_nil g).symm ▸ h.cancel
  | reset => exact (List.append_nil g).symm ▸ h.reset
  | change f => exact (List.append_nil g).symm ▸ h.change f

lemma Resting.serveAll (h : s.Resting g) {calls : List Call}
    (hlive : (s.serveAll calls).live = true) :
    (s.serveAll calls).Resting (g ++ s.assertedBy calls) := by
  induction calls generalizing s g with
  | nil => rwa [assertedBy, List.append_nil]
  | cons c calls ih =>
    rw [assertedBy, ← List.append_assoc]
    exact ih (h.serve (live_of_live_serveAll hlive)) hlive

/-- Before the first call the worker has nothing to do. -/
lemma resting_create (size : Nat) (image : List UInt8) :
    Resting { machine := Machine.create size image } [] where
  status_iff := ⟨fun hstatus => (by cases hstatus), fun hwaiting => (by cases hwaiting)⟩
  delivered := rfl
  queue := rfl
  ready := rfl

/-! ### Between two calls -/

/-- A machine is switched on and its scheduler called, one call after another.  As long as
the scheduler is not shut down, between two calls the status tells whether the machine
waits; cycles are owed only by a machine that waits and has nothing to deliver; all
interrupts that have been asserted are on record, each once and in their order; and a poll
finds no status exactly if the machine waits in the middle of a request. -/
theorem settled_after_calls (size : Nat) (image : List UInt8) (calls : List Call) :
    let start : Scheduler := { machine := Machine.create size image }
    let s := start.serveAll calls
    s.live = true →
      (s.status = .waiting ↔ s.machine.waiting = true) ∧
      (s.owed ≠ 0 → s.machine.waiting = true ∧ s.machine.queue = []) ∧
      s.machine.queue = [] ∧
      s.machine.delivered = start.assertedBy calls ∧
      (s.poll = .ok none ↔ s.machine.waiting = true ∧ s.owed ≠ 0) := by
  intro start s hlive
  have h : s.Resting (start.assertedBy calls) := (resting_create size image).serveAll hlive
  have howed : s.owed ≠ 0 → s.machine.waiting = true := fun howed =>
    h.status_iff.1 (waiting_of_ready hlive howed h.ready).1
  have hpoll : s.poll = .ok none ↔ s.owed ≠ 0 := by
    by_cases hzero : s.owed = 0
    · simp [poll, hlive, hzero]
    · simp [poll, hlive, hzero]
  refine ⟨h.status_iff, fun hne => ⟨howed hne, h.queue⟩, h.queue, h.delivered, ?_⟩
  rw [hpoll]
  exact ⟨fun hne => ⟨howed hne, hne⟩, And.right⟩

/-- The machine waits whenever it comes to address 0.  A caller that asks for five cycles
while it waits is blocked twice: at once, and when the machine has come to address 0 again.
Two of three interrupts release it; then there is a cancelled request, one interrupt more,
and a reset, after which the machine waits in the middle of a request for four cycles. -/
theorem settled_after_blocked_call :
    let calls : List Call :=
      [.step 3, .step 2, .poll, .stepAndWait 5 [⟨1, 0⟩, ⟨2, 0⟩, ⟨3, 0⟩], .step 7, .step 4, .cancel,
        .interrupt ⟨4, 0⟩, .reset, .step 1, .step 4]
    let s := ({ machine := Machine.create 16 [0x01, 0, 0, 0xef] } : Scheduler).serveAll calls
    s.live = true ∧ s.status = .waiting ∧ s.machine.waiting = true ∧ s.owed = 4 ∧
      s.machine.queue = [] ∧ s.machine.delivered = [⟨1, 0⟩, ⟨2, 0⟩, ⟨4, 0⟩] ∧
      s.poll = .ok none := by
  intro calls s
  have hlive : s.live = true := by decide +kernel
  have howed : s.owed = 4 := by decide +kernel
  have hne : s.owed ≠ 0 := by rw [howed]; decide
  obtain ⟨hstatus, hwaits, hqueue, hdelivered, hpoll⟩ :=
    settled_after_calls 16 [0x01, 0, 0, 0xef] calls hlive
  have hwaiting := (hwaits hne).1
  exact ⟨hlive, hstatus.2 hwaiting, hwaiting, howed, hqueue,
    hdelivered.trans (by decide +kernel), hpoll.2 ⟨hwaiting, hne⟩⟩

end Scheduler
end RemoteDebugger
