/-
# What a stopped session owes

A session lets its machine run in slices, and a slice on an idle machine stays in flight
with its cycles owed.  Three parts of the state tell of this, and they are kept by different
functions: whether the session runs, whether a slice is in flight, and how many cycles the
scheduler owes.

Between two actions they agree (`Session.Core.Rested`): the worker has nothing to do, and
cycles are owed for a slice only.  As a stopped session has no slice in flight, it owes
nothing, and whatever stops a session puts an end to the slice
(`Session.stopped_owes_nothing`): from then on things go as if the slice had been called
off before.
-/
import RemoteDebugger.Proofs.Scheduler.Owed
import RemoteDebugger.Proofs.Session.Orderly

namespace RemoteDebugger

/-- A cycle under the debugger is waited for, so nothing is owed behind it. -/
lemma Breakpoints.owed_cycle {t : Breakpoints} {x : Scheduler}
    (hlive : (t.cycle x).2.live = true) : (t.cycle x).2.owed = 0 := by
  obtain ⟨lifted, restored, hcycle⟩ := t.exists_setMemory x
  rw [hcycle, Scheduler.live_setMemory] at hlive
  rw [hcycle, Scheduler.owed_setMemory]
  exact Scheduler.owed_stepAndWait (by decide) hlive

namespace Session

/-! ### At rest -/

/-- A core whose scheduler, as long as it is live, has nothing to do and owes cycles for a
slice only. -/
structure Core.Rested (c : Core) : Prop where
  /-- The worker has nothing to do. -/
  ready (hlive : c.scheduler.live = true) : c.scheduler.ready = false
  /-- Cycles that are owed belong to a slice. -/
  slice (hlive : c.scheduler.live = true) (howed : c.scheduler.owed ≠ 0) : c.sliceInFlight = true

variable {s s' : Session} {c : Core}

/-- A core that owes nothing is at rest. -/
lemma Core.Rested.of_owed (h : c.scheduler.live = true → c.scheduler.owed = 0) : c.Rested where
  ready hlive := Scheduler.ready_of_owed (h hlive)
  slice hlive howed := absurd (h hlive) howed

/-- A session at rest without a slice owes nothing. -/
lemma Core.Rested.owed (h : c.Rested) (hslice : c.sliceInFlight = false)
    (hlive : c.scheduler.live = true) : c.scheduler.owed = 0 := by
  by_contra howed
  exact absurd (hslice.symm.trans (h.slice hlive howed)) Bool.false_ne_true

/-! ### The operations -/

lemma owed_settle (h : s.core.Rested) (hlive : s.settle.scheduler.live = true) :
    s.settle.scheduler.owed = 0 := by
  simp only [settle] at hlive ⊢
  split
  · rfl
  · next hidle =>
    rw [if_neg hidle] at hlive
    rw [Bool.or_eq_true, not_or, Bool.not_eq_true] at hidle
    exact h.owed hidle.1 hlive

lemma owed_clearNextBreakpoint (s : Session) :
    s.clearNextBreakpoint.scheduler.owed = s.scheduler.owed := by
  simp only [clearNextBreakpoint]
  split
  · rfl
  · split
    · rfl
    · rfl

lemma rested_settle (h : s.core.Rested) : s.settle.core.Rested := .of_owed (owed_settle h)

lemma rested_cleared (h : s.core.Rested) : s.settle.clearNextBreakpoint.core.Rested := by
  refine .of_owed fun hlive => ?_
  change s.settle.clearNextBreakpoint.scheduler.owed = 0
  rw [owed_clearNextBreakpoint]
  exact owed_settle h ((live_clearNextBreakpoint _).symm.trans hlive)

lemma rested_halt (h : s.core.Rested) (cause : StopCause) : (s.halt cause).core.Rested := by
  rw [core_halt]
  exact rested_cleared h

lemma rested_resume (h : s.core.Rested) : s.resume.2.core.Rested := by
  simp only [resume]
  split
  · exact h
  · have hcycle := Breakpoints.owed_cycle (t := s.breakpoints) (x := s.scheduler)
    rw [Breakpoints.cycle] at hcycle
    split
    · exact ⟨h.ready, h.slice⟩
    · next hover =>
      rw [hover] at hcycle
      exact .of_owed hcycle
    · next hover =>
      rw [hover] at hcycle
      exact .of_owed hcycle

lemma rested_step (s : Session) : s.step.2.core.Rested := by
  rw [(step_cycle s).2]
  exact .of_owed Breakpoints.owed_cycle

lemma rested_next (h : s.core.Rested) : s.next.2.core.Rested := by
  have hsettle := rested_settle h
  generalize hnext : s.next.2 = t
  cases hnext ▸ nextCase s with
  | unreadable => exact hsettle
  | known => exact rested_resume hsettle
  | refused => exact hsettle
  | called => exact rested_resume ⟨hsettle.ready, hsettle.slice⟩
  | single => exact rested_step _

lemma rested_restart (s : Session) : s.restart.2.core.Rested := by
  obtain ⟨t, hcore, hrestart⟩ := restart_cases s
  have ht : t.core.Rested := by
    rw [hcore]
    exact .of_owed fun _ => rfl
  rw [hrestart]
  split
  · exact rested_resume ht
  · exact ht

lemma rested_launchSlice (h : s.core.Rested) : s.launchSlice.core.Rested := by
  simp only [launchSlice]
  split
  · exact h
  · exact ⟨fun _ => Scheduler.ready_work _, fun _ _ => rfl⟩

/-- A slice that has ended owes nothing, and one that has not is in flight. -/
lemma rested_advance (h : s.core.Rested) : s.advance.2.core.Rested := by
  have hlaunched := rested_launchSlice h
  unfold advance
  split
  · exact h
  · dsimp only
    split
    · exact hlaunched
    · exact hlaunched
    · next status hpoll =>
      obtain ⟨t, ht, hend⟩ := endSlice_cases s.launchSlice status
      have hrested : t.core.Rested := by
        rw [ht]
        exact .of_owed fun _ => Scheduler.owed_of_poll hpoll
      rcases hend with hend | ⟨cause, hend⟩
      · rw [hend]
        exact hrested
      · rw [hend]
        exact rested_halt hrested cause

lemma rested_setBreakpoint (h : s.core.Rested) (address : UInt32) :
    (s.setBreakpoint address).2.core.Rested := by
  simp only [setBreakpoint]
  split
  · exact ⟨h.ready, h.slice⟩
  · split
    · exact h
    · exact h
    · exact ⟨h.ready, h.slice⟩

lemma rested_unsetBreakpoint (h : s.core.Rested) (address : UInt32) :
    (s.unsetBreakpoint address).2.core.Rested := by
  simp only [unsetBreakpoint]
  split
  · exact h
  · split
    · exact ⟨h.ready, h.slice⟩
    · exact ⟨h.ready, h.slice⟩

lemma rested_writeMemory (h : s.core.Rested) (address : UInt32) (data : List UInt8) :
    (s.writeMemory address data).2.core.Rested := by
  simp only [writeMemory]
  split
  · exact h
  · exact ⟨h.ready, h.slice⟩

/-! ### Actions and runs -/

/-- No disturbance makes the worker owe cycles, or gives it something to do. -/
lemma Disturbed.rested {x y : Scheduler} (h : Disturbed x y)
    (hready : x.live = true → x.ready = false) :
    (y.live = true → y.ready = false) ∧ (y.live = true → y.owed ≠ 0 → x.owed ≠ 0) := by
  cases h with
  | interrupt irq =>
    refine ⟨fun _ => Scheduler.ready_work _, fun hlive howed => ?_⟩
    rw [Scheduler.interrupt_eq ((Scheduler.live_interrupt x irq).symm.trans hlive)] at howed
    exact absurd rfl howed
  | shutdown => exact ⟨fun hlive => (by cases hlive), fun hlive => (by cases hlive)⟩
  | _ => exact ⟨hready, fun _ => id⟩

lemma Stirred.rested (h : Stirred s s') (hs : s.core.Rested) : s'.core.Rested := by
  obtain ⟨hready, howed⟩ := h.scheduler.rested hs.ready
  rw [h.core]
  exact ⟨hready, fun hlive hne => hs.slice (h.scheduler.live hlive) (howed hlive hne)⟩

lemma rested_operate (op : Operation) (h : s.core.Rested) : (s.operate op).core.Rested := by
  cases op with
  | halt cause => exact rested_halt h cause
  | resume => exact rested_resume h
  | step => exact rested_step s
  | next => exact rested_next h
  | restart => exact rested_restart s
  | advance => exact rested_advance h
  | setBreakpoint address => exact rested_setBreakpoint h address
  | unsetBreakpoint address => exact rested_unsetBreakpoint h address
  | write address data => exact rested_writeMemory h address data

lemma rested_act (h : s.core.Rested) (a : Action) : (s.act a).core.Rested :=
  core_act (I := Core.Rested) Stirred.rested rested_operate h a

lemma rested_run (h : s.core.Rested) (actions : List Action) : (s.run actions).core.Rested :=
  core_run (I := Core.Rested) (fun a hs => rested_act hs a) h actions

lemma rested_create (machine : Machine) (config : Config) (disassembler : Disassembler)
    (tapes : Tapes) (connected : Bool) :
    (create { machine } config disassembler tapes connected).core.Rested := by
  rw [core_create]
  exact .of_owed fun _ => rfl

/-! ### Slices that are called off -/

/-- An action that puts an end to a slice. -/
inductive Ends : Action → Prop where
  /-- The client stops the machine. -/
  | stop : Ends (.event (.message .stop))
  /-- The client has one instruction executed. -/
  | step : Ends (.event (.message .step))
  /-- The client goes on to the next instruction. -/
  | next : Ends (.event (.message .next))
  /-- The client switches the machine off and on again. -/
  | restart : Ends (.event (.message .restart))
  /-- GDB attaches. -/
  | attach : Ends (.event .attached)
  /-- GDB stops the machine. -/
  | interrupt : Ends (.event .interrupt)
  /-- GDB has one instruction executed. -/
  | command (address : Option UInt32) : Ends (.event (.command (.step address)))
  /-- GDB has one instruction executed, and no answer is sent. -/
  | execute (address : Option UInt32) : Ends (.execute (.step address))

/-- The session without a slice: nothing is in flight and nothing owed. -/
def withoutSlice (s : Session) : Session :=
  { s with scheduler := s.scheduler.cancel, sliceInFlight := false }

lemma withoutSlice_eq (howed : s.scheduler.owed = 0) (hslice : s.sliceInFlight = false) :
    s.withoutSlice = s := by
  have hcancel : s.scheduler.cancel = s.scheduler := by
    rw [Scheduler.cancel, ← howed]
  rw [withoutSlice, hcancel, ← hslice]

lemma settle_withoutSlice (h : s.isRunning = true) : s.withoutSlice.settle = s.settle := by
  have hrunning : s.withoutSlice.isRunning = true := h
  simp only [settle, h, hrunning, Bool.or_true, if_true]
  rfl

lemma halt_withoutSlice (h : s.isRunning = true) (cause : StopCause) :
    s.withoutSlice.halt cause = s.halt cause := by
  simp only [halt, settle_withoutSlice h]
  rfl

lemma step_withoutSlice (h : s.isRunning = true) : s.withoutSlice.step = s.step := by
  simp only [step, settle_withoutSlice h]

lemma executeSerial_step_withoutSlice (h : s.isRunning = true) (address : Option UInt32) :
    s.withoutSlice.executeSerial (.step address) = s.executeSerial (.step address) := by
  have hgoTo : (s.withoutSlice.goTo address).step = (s.goTo address).step := by
    cases address with
    | none => exact step_withoutSlice h
    | some address => exact step_withoutSlice (s := s.goTo (some address)) h
  simp only [executeSerial, hgoTo]

/-- Whatever ends the slice of a running session begins by calling it off. -/
lemma act_withoutSlice (h : s.isRunning = true) {a : Action} (ha : Ends a) :
    s.withoutSlice.act a = s.act a := by
  have hrunning : s.withoutSlice.isRunning = true := h
  cases ha with
  | stop => exact halt_withoutSlice h .requested
  | step =>
    change s.withoutSlice.step.2 = s.step.2
    rw [step_withoutSlice h]
  | next =>
    change s.withoutSlice.next.2 = s.next.2
    simp only [next, settle_withoutSlice h]
  | restart =>
    change s.withoutSlice.restart.2 = s.restart.2
    simp only [restart, settle_withoutSlice h, h, hrunning]
  | attach =>
    exact halt_withoutSlice (s := { s with gdb := { attached := true }, started := true }) h
      .attached
  | interrupt =>
    change s.withoutSlice.interrupt = s.interrupt
    simp only [interrupt, h, hrunning]
    exact halt_withoutSlice h .interrupted
  | command address =>
    change s.withoutSlice.handleSerial (.step address) = s.handleSerial (.step address)
    simp only [handleSerial, executeSerial_step_withoutSlice h]
  | execute address => exact congrArg Prod.snd (executeSerial_step_withoutSlice h address)

lemma sliceInFlight_cleared (s : Session) : s.settle.clearNextBreakpoint.sliceInFlight = false := by
  simp only [clearNextBreakpoint]
  split
  · rfl
  · split
    · rfl
    · rfl

lemma sliceInFlight_halt (s : Session) (cause : StopCause) :
    (s.halt cause).sliceInFlight = false :=
  (congrArg Core.sliceInFlight (core_halt s cause)).trans (sliceInFlight_cleared s)

lemma sliceInFlight_resume (s : Session) : s.resume.2.sliceInFlight = s.sliceInFlight := by
  obtain ⟨y, -, hcore | ⟨-, hcore⟩⟩ := resume_cases s
  · exact congrArg Core.sliceInFlight hcore
  · exact congrArg Core.sliceInFlight hcore

lemma sliceInFlight_step (s : Session) : s.step.2.sliceInFlight = false := by
  obtain ⟨y, -, hcore⟩ := core_step s
  exact (congrArg Core.sliceInFlight hcore).trans (sliceInFlight_cleared s)

lemma sliceInFlight_next (s : Session) : s.next.2.sliceInFlight = false := by
  generalize hnext : s.next.2 = t
  cases hnext ▸ nextCase s with
  | unreadable => rfl
  | known => exact sliceInFlight_resume _
  | refused => rfl
  | called => exact sliceInFlight_resume _
  | single => exact sliceInFlight_step _

lemma sliceInFlight_restart (s : Session) : s.restart.2.sliceInFlight = false := by
  obtain ⟨t, hcore, hrestart⟩ := restart_cases s
  have ht : t.sliceInFlight = false :=
    (congrArg Core.sliceInFlight hcore).trans (sliceInFlight_cleared s)
  rw [hrestart]
  split
  · exact (sliceInFlight_resume t).trans ht
  · exact ht

/-- Behind an action that puts an end to slices there is none in flight. -/
lemma sliceInFlight_act (h : s.core.Orderly) {a : Action} (ha : Ends a) :
    (s.act a).sliceInFlight = false := by
  obtain ⟨s', -, hcore⟩ := follows_act s a
  have hslice := congrArg Core.sliceInFlight hcore
  cases ha with
  | stop => exact hslice.trans (sliceInFlight_halt s' _)
  | step => exact hslice.trans (sliceInFlight_step s')
  | next => exact hslice.trans (sliceInFlight_next s')
  | restart => exact hslice.trans (sliceInFlight_restart s')
  | attach => exact hslice.trans (sliceInFlight_halt s' _)
  | interrupt =>
    change s.interrupt.sliceInFlight = false
    simp only [interrupt]
    split
    · exact sliceInFlight_halt s _
    · next hstopped =>
      -- a machine that does not run is left alone
      refine h.landed ?_
      change s.runState = .stopped
      cases hstate : s.runState with
      | stopped => rfl
      | running => simp [isRunning, hstate] at hstopped
  | command address => exact hslice.trans (sliceInFlight_step s')
  | execute address => exact hslice.trans (sliceInFlight_step s')

/-! ### Interrupts on a stopped session -/

/-- Interrupts leave a session alone but for its scheduler. -/
lemma run_interrupts (s : Session) (irqs : List Interrupt) :
    s.run (irqs.map .interrupt) =
      { s with scheduler := irqs.foldl Scheduler.interrupt s.scheduler } := by
  induction irqs generalizing s with
  | nil => rfl
  | cons irq rest ih => exact ih _

/-- In a session whose machine has not been shut down a slice is in flight only while the
session runs, and cycles are owed only for a slice, on a machine that waits and has nothing
to deliver; so a stopped session owes nothing.  An action that ends slices leaves none in
flight and nothing owed, and whatever comes later comes as if the slice had been called off
before.  A stopped machine executes one cycle for each interrupt, and no more. -/
theorem stopped_owes_nothing (machine : Machine) (config : Config) (disassembler : Disassembler)
    (tapes : Tapes) (connected : Bool) (actions : List Action) :
    let s := (create { machine } config disassembler tapes connected).run actions
    s.scheduler.live = true →
      (s.sliceInFlight = true → s.runState = .running) ∧
      (s.scheduler.owed ≠ 0 →
        s.sliceInFlight = true ∧ s.scheduler.machine.waiting = true ∧
          s.scheduler.machine.queue = []) ∧
      (s.runState = .stopped → s.scheduler.owed = 0) ∧
      (∀ a, Ends a → (s.act a).scheduler.live = true →
        (s.act a).scheduler.owed = 0 ∧ (s.act a).sliceInFlight = false ∧
          ∀ later, s.run (a :: later) = s.withoutSlice.run (a :: later)) ∧
      (s.runState = .stopped → ∀ irqs : List Interrupt,
        (s.run (irqs.map .interrupt)).scheduler.machine =
          irqs.foldl (fun machine irq => (machine.interrupt irq).cycle.2)
            s.scheduler.machine) := by
  intro s hlive
  have horderly : s.core.Orderly :=
    orderly_run (orderly_create (fun hstatus => by cases hstatus) config disassembler tapes
      connected) actions
  have hrested : s.core.Rested :=
    rested_run (rested_create machine config disassembler tapes connected) actions
  have hstopped : s.runState = .stopped → s.scheduler.owed = 0 := fun hstopped =>
    hrested.owed (horderly.landed hstopped) hlive
  have hslice : s.sliceInFlight = true → s.runState = .running := by
    intro hslice
    cases hstate : s.runState with
    | running => rfl
    | stopped => exact absurd ((horderly.landed hstate).symm.trans hslice) Bool.false_ne_true
  refine ⟨hslice, fun howed => ⟨hrested.slice hlive howed, ?_⟩, hstopped, fun a ha hact => ?_,
    fun hstate irqs => ?_⟩
  · obtain ⟨hstatus, hqueue⟩ := Scheduler.waiting_of_ready hlive howed (hrested.ready hlive)
    exact ⟨horderly.honest hstatus, hqueue⟩
  · have hnone := sliceInFlight_act horderly ha
    refine ⟨(rested_act hrested a).owed hnone hact, hnone, fun later => ?_⟩
    change (s.act a).run later = (s.withoutSlice.act a).run later
    cases hstate : s.runState with
    | running => rw [act_withoutSlice (beq_iff_eq.2 hstate) ha]
    | stopped => rw [withoutSlice_eq (hstopped hstate) (horderly.landed hstate)]
  · rw [run_interrupts]
    exact Scheduler.machine_interrupts hlive (hstopped hstate) irqs

/-- The first slice ends at a wait and the second stays in flight.  After a stop, two
interrupts move the machine on by two words only. -/
theorem stopped_after_blocked_slice :
    let start := create { machine := Machine.create 16 [0x01, 0, 0, 0xef] } { symbolsAddress := 16 }
      .standard {} false
    let s := start.run [.event (.message .resume), .advance, .advance]
    let stopped := s.act (.event (.message .stop))
    s.scheduler.live = true ∧ s.sliceInFlight = true ∧ s.scheduler.owed ≠ 0 ∧ s.pc = 4 ∧
      stopped.scheduler.owed = 0 ∧
      (stopped.run ([⟨1, 0⟩, ⟨2, 0⟩].map .interrupt)).scheduler.machine.pc = 12 := by
  intro start s stopped
  have hlive : s.scheduler.live = true := by decide +kernel
  have hlive' : stopped.scheduler.live = true := by decide +kernel
  obtain ⟨-, -, -, hends, -⟩ := stopped_owes_nothing (Machine.create 16 [0x01, 0, 0, 0xef])
    { symbolsAddress := 16 } .standard {} false
    [.event (.message .resume), .advance, .advance] hlive
  obtain ⟨howed, -, -⟩ := hends _ .stop hlive'
  obtain ⟨-, -, -, -, hirqs⟩ := stopped_owes_nothing (Machine.create 16 [0x01, 0, 0, 0xef])
    { symbolsAddress := 16 } .standard {} false
    [.event (.message .resume), .advance, .advance, .event (.message .stop)] hlive'
  refine ⟨hlive, by decide +kernel, by decide +kernel, by decide +kernel, howed, ?_⟩
  refine (congrArg Machine.pc (hirqs (by decide +kernel) [⟨1, 0⟩, ⟨2, 0⟩])).trans ?_
  decide +kernel

end Session
end RemoteDebugger
