/-
# Single steps

A program that is executed in single steps cannot tell that there are breakpoints.  Before
each step breakpoints may be set and taken away, on the word to be executed, on the next or
anywhere: the steps are the cycles of the *plain* machine, which executes plain memory and
knows no breakpoints (`Session.steps_are_plain_cycles`).

The invariant is that the session *tracks* the plain machine (`Session.Core.Tracks`): it is
the same machine but for the traps in memory.  No interrupt may come; so a step that waits
is never done, and this is the only way in which a step fails.
-/
import RemoteDebugger.Proofs.Session.Continuation

namespace RemoteDebugger

/-- A change of the breakpoints. -/
inductive BreakpointChange where
  /-- Set a breakpoint. -/
  | set (address : UInt32)
  /-- Take a breakpoint away. -/
  | unset (address : UInt32)

namespace Session

/-- Change the breakpoints; a change that is refused does nothing. -/
def changeBreakpoint (s : Session) : BreakpointChange → Session
  | .set address => (s.setBreakpoint address).2
  | .unset address => (s.unsetBreakpoint address).2

/-- One change after another. -/
def changeBreakpoints (s : Session) (changes : List BreakpointChange) : Session :=
  changes.foldl changeBreakpoint s

/-- The session after so many steps, before each of which the scheduled changes are made. -/
def stepped (s : Session) (schedule : Nat → List BreakpointChange) : Nat → Session
  | 0 => s
  | i + 1 => ((stepped s schedule i).changeBreakpoints (schedule i)).step.2

/-- What comes of the step of that number. -/
def stepOutcome (s : Session) (schedule : Nat → List BreakpointChange) (i : Nat) :
    Except Fault Status :=
  ((s.stepped schedule i).changeBreakpoints (schedule i)).step.1

/-! ### The invariant -/

/-- A core with the given machine, but for the traps in its memory. -/
structure Core.Tracks (c : Core) (machine : Machine) : Prop where
  /-- The machine has not been shut down. -/
  live : c.scheduler.live = true
  /-- The worker is not kept from its turn. -/
  not_waiting : c.scheduler.status ≠ .waiting
  /-- No interrupt will come. -/
  undisturbed : c.scheduler.arrivals = []
  /-- The traps are in memory. -/
  installed : c.breakpoints.Installed c.scheduler.memory
  /-- The machine has plain memory. -/
  plain_eq : machine.memory = c.breakpoints.plain c.scheduler.memory
  /-- All but memory is the same. -/
  machine_eq : c.scheduler.machine = machine.withMemory c.scheduler.memory
  /-- The machine neither waits nor has an interrupt to deliver, and stands on a word. -/
  steady : machine.Steady

variable {s : Session} {machine : Machine} {schedule : Nat → List BreakpointChange}

/-! ### Changes of the breakpoints -/

lemma tracks_setBreakpoints (h : s.core.Tracks machine) {t : Breakpoints} {memory : Memory}
    (ht : t.Installed memory) (hplain : t.plain memory = s.breakpoints.plain s.memory) :
    (s.setBreakpoints t memory).core.Tracks machine where
  live := h.live
  not_waiting := h.not_waiting
  undisturbed := h.undisturbed
  installed := ht
  plain_eq := h.plain_eq.trans hplain.symm
  machine_eq := by
    change s.scheduler.machine.withMemory memory = machine.withMemory memory
    rw [show s.scheduler.machine = _ from h.machine_eq]
    rfl
  steady := h.steady

lemma tracks_add (h : s.core.Tracks machine) {t : Breakpoints} {memory : Memory}
    {address : UInt32} (hadd : s.breakpoints.add address s.memory = .ok (some (t, memory))) :
    (s.setBreakpoints t memory).core.Tracks machine :=
  tracks_setBreakpoints h (h.installed.add hadd)
    (Breakpoints.plain_of_add h.installed.aligned hadd)

lemma tracks_remove (h : s.core.Tracks machine) {t : Breakpoints} {memory : Memory}
    {address : UInt32} (hremove : s.breakpoints.remove address s.memory = .ok (t, memory)) :
    (s.setBreakpoints t memory).core.Tracks machine :=
  tracks_setBreakpoints h (h.installed.remove hremove)
    (Breakpoints.plain_of_remove h.installed.aligned hremove)

/-- Which breakpoint is to go away, and whether the session runs, is beside the point. -/
lemma Core.Tracks.of_eq {c c' : Core} (h : c.Tracks machine)
    (hscheduler : c'.scheduler = c.scheduler) (hbreakpoints : c'.breakpoints = c.breakpoints) :
    c'.Tracks machine := by
  obtain ⟨scheduler, breakpoints, next, runState, slice⟩ := c'
  subst hscheduler hbreakpoints
  exact ⟨h.1, h.2, h.3, h.4, h.5, h.6, h.7⟩

lemma tracks_setBreakpoint (h : s.core.Tracks machine) (address : UInt32) :
    (s.setBreakpoint address).2.core.Tracks machine := by
  simp only [setBreakpoint]
  split
  · exact h.of_eq rfl rfl
  · split
    · exact h
    · exact h
    · next hadd => exact tracks_add h hadd

lemma tracks_unsetBreakpoint (h : s.core.Tracks machine) (address : UInt32) :
    (s.unsetBreakpoint address).2.core.Tracks machine := by
  simp only [unsetBreakpoint]
  split
  · exact h
  · next hremove =>
    have htracks := tracks_remove h hremove
    dsimp only
    split
    · exact htracks.of_eq rfl rfl
    · exact htracks

lemma tracks_changeBreakpoints (h : s.core.Tracks machine) (changes : List BreakpointChange) :
    (s.changeBreakpoints changes).core.Tracks machine := by
  induction changes generalizing s with
  | nil => exact h
  | cons change rest ih =>
    refine ih (s := s.changeBreakpoint change) ?_
    cases change with
    | set address => exact tracks_setBreakpoint h address
    | unset address => exact tracks_unsetBreakpoint h address

/-! ### One step -/

lemma tracks_cleared (h : s.core.Tracks machine) :
    s.settle.clearNextBreakpoint.core.Tracks machine := by
  have hsettle : s.settle.core.Tracks machine := by
    change Core.Tracks { scheduler := if _ then _ else _, .. } machine
    split
    · exact ⟨h.1, h.2, h.3, h.4, h.5, h.6, h.7⟩
    · exact h.of_eq rfl rfl
  simp only [clearNextBreakpoint]
  split
  · exact hsettle
  · split
    · next hremove => exact (tracks_remove hsettle hremove).of_eq rfl rfl
    · exact hsettle.of_eq rfl rfl

/-- A step that does not wait is a cycle of the plain machine. -/
lemma Core.Tracks.step (h : s.core.Tracks machine) (hwait : machine.fetch ≠ waitWord) :
    s.step.1 = .ok machine.cycle.1 ∧ s.step.2.core.Tracks machine.cycle.2 := by
  have hcleared := tracks_cleared h
  obtain ⟨houtcome, hcore⟩ := step_cycle s
  generalize s.settle.clearNextBreakpoint = cleared at hcleared houtcome hcore
  have hcycle : cleared.breakpoints.cycle cleared.scheduler = _ :=
    hcleared.installed.cycle_of_ne_wait hcleared.live hcleared.not_waiting hcleared.machine_eq
      hcleared.plain_eq hcleared.steady hwait
  rw [houtcome, hcore, hcycle]
  refine ⟨rfl, ?_⟩
  exact
    { live := hcleared.live
      not_waiting := hcleared.steady.cycle_ne_waiting hwait
      undisturbed := hcleared.undisturbed
      installed := hcleared.installed
      plain_eq := (congrArg Prod.fst (Machine.contents_cycle machine)).trans hcleared.plain_eq
      machine_eq := rfl
      steady := hcleared.steady.cycle hwait }

/-- A step that waits is never done. -/
lemma Core.Tracks.step_of_wait (h : s.core.Tracks machine) (hwait : machine.fetch = waitWord) :
    s.step.1 = .error .terminated := by
  have hcleared := tracks_cleared h
  rw [(step_cycle s).1]
  exact hcleared.installed.cycle_of_wait hcleared.live hcleared.not_waiting hcleared.machine_eq
    hcleared.plain_eq hcleared.steady hcleared.undisturbed hwait

/-! ### Many steps -/

/-- A session that tracks the plain machine goes on doing so until the machine waits. -/
lemma Core.Tracks.stepped (h : s.core.Tracks machine) {n : Nat}
    (hwait : ∀ i < n, (machine.after i).fetch ≠ waitWord) :
    (s.stepped schedule n).core.Tracks (machine.after n) := by
  induction n with
  | zero => exact h
  | succ n ih =>
    have htracks := tracks_changeBreakpoints (ih fun i hi => hwait i (by omega)) (schedule n)
    rw [Machine.after_succ]
    exact (htracks.step (hwait n (by omega))).2

lemma Core.Tracks.stepOutcome (h : s.core.Tracks machine) {i : Nat}
    (hbefore : ∀ j < i, (machine.after j).fetch ≠ waitWord)
    (hwait : (machine.after i).fetch ≠ waitWord) :
    s.stepOutcome schedule i = .ok (machine.after i).cycle.1 :=
  ((tracks_changeBreakpoints (h.stepped hbefore) (schedule i)).step hwait).1

/-- The steps succeed until the machine waits. -/
lemma Core.Tracks.forall_ok_iff (h : s.core.Tracks machine) {n : Nat} :
    (∀ i < n, ∃ status, s.stepOutcome schedule i = .ok status) ↔
      ∀ i < n, (machine.after i).fetch ≠ waitWord := by
  refine ⟨fun hok i => ?_, fun hwait i hi => ?_⟩
  · induction i using Nat.strongRecOn with
    | ind i ih =>
      intro hi hwait
      have hbefore : ∀ j < i, (machine.after j).fetch ≠ waitWord := fun j hj => ih j hj (by omega)
      have herror : s.stepOutcome schedule i = .error .terminated :=
        (tracks_changeBreakpoints (h.stepped hbefore) (schedule i)).step_of_wait hwait
      obtain ⟨status, hstatus⟩ := hok i hi
      rw [herror] at hstatus
      cases hstatus
  · exact ⟨_, h.stepOutcome (fun j hj => hwait j (by omega)) (hwait i hi)⟩

/-! ### What is seen -/

lemma Core.Tracks.snapshot_eq (h : s.core.Tracks machine) :
    s.scheduler.machine.snapshot = machine.snapshot := by
  rw [show s.scheduler.machine = _ from h.machine_eq]
  rfl

lemma Core.Tracks.readMemory_eq (h : s.core.Tracks machine) (address : UInt32) (length : Nat) :
    s.readMemory address length = machine.read address length := by
  rw [Machine.read, h.plain_eq]
  exact readMemory_of_aligned h.installed.aligned address length

/-- A session whose machine can go on, and to which no interrupt will come, is stepped; before
each step breakpoints may be set and taken away.  The steps succeed as long as the plain
machine does not come to wait, and then each of them ends like a cycle of the plain machine
and leaves its registers, its mode, whether it waits, and its memory to be seen. -/
theorem steps_are_plain_cycles (machine : Machine)
    (hsize : machine.image.size = machine.memory.size) (config : Config)
    (disassembler : Disassembler) (tapes : Tapes) (connected : Bool) (actions : List Action)
    (schedule : Nat → List BreakpointChange) (n : Nat) :
    let s := (create { machine } config disassembler tapes connected).run actions
    s.scheduler.live = true → s.scheduler.arrivals = [] → s.scheduler.machine.Steady →
      ((∀ i < n, ∃ status, s.stepOutcome schedule i = .ok status) ↔
        ∀ i < n, ((s.plainMachine i).run 1).1 ≠ .waiting) ∧
      ((∀ i < n, ∃ status, s.stepOutcome schedule i = .ok status) →
        (∀ i < n, s.stepOutcome schedule i = .ok ((s.plainMachine i).run 1).1) ∧
        ∀ i ≤ n, (s.stepped schedule i).scheduler.machine.snapshot = (s.plainMachine i).snapshot ∧
          ∀ address length, (s.stepped schedule i).readMemory address length =
            (s.plainMachine i).read address length) := by
  intro s hlive harrivals hsteady
  have horderly : s.core.Orderly :=
    orderly_run (orderly_create (fun hstatus => by cases hstatus) config disassembler tapes
      connected) actions
  have hshows := shows_run { machine } config disassembler tapes connected hsize actions
  have htracks : s.core.Tracks (s.plainMachine 0) :=
    { live := hlive
      not_waiting := fun hstatus =>
        absurd (hsteady.waiting.symm.trans (horderly.honest hstatus)) Bool.false_ne_true
      undisturbed := harrivals
      installed := hshows.installed
      plain_eq := rfl
      machine_eq := rfl
      steady := hsteady.withMemory _ }
  have hwaits : (∀ i < n, ((s.plainMachine i).run 1).1 ≠ .waiting) ↔
      ∀ i < n, (s.plainMachine i).fetch ≠ waitWord := by
    simp only [Machine.run_one]
    exact htracks.steady.forall_cycle_ne_waiting_iff
  refine ⟨htracks.forall_ok_iff.trans hwaits.symm, fun hok => ⟨fun i hi => ?_, fun i hi => ?_⟩⟩
  · have hwait := htracks.forall_ok_iff.1 hok
    rw [Machine.run_one]
    exact htracks.stepOutcome (fun j hj => hwait j (by omega)) (hwait i hi)
  · have hi : (s.stepped schedule i).core.Tracks (s.plainMachine i) :=
      htracks.stepped fun j hj => htracks.forall_ok_iff.1 hok j (by omega)
    exact ⟨hi.snapshot_eq, hi.readMemory_eq⟩

/-- Breakpoints on the word to be executed and on the next, one taken away when it has been
reached and one set ahead; at address 12 there is a trap of the program. -/
theorem steps_over_changing_breakpoints :
    let machine := Machine.create 16 [0, 0, 0, 0, 0, 0, 0, 0, 0, 0, 0, 0, 0xef, 0xee, 0xbe, 0xef]
    let s := (create { machine } { symbolsAddress := 16 } .standard {} false).run
      [.event (.message (.setBreakpoint 0)), .event (.message (.setBreakpoint 4))]
    let schedule : Nat → List BreakpointChange
      | 1 => [.unset 4, .set 8]
      | 3 => [.set 12]
      | _ => []
    machine.image.size = machine.memory.size ∧ s.scheduler.live = true ∧
      s.scheduler.arrivals = [] ∧ s.scheduler.machine.Steady ∧
      (∀ i < 4, ∃ status, s.stepOutcome schedule i = .ok status) ∧
      s.stepOutcome schedule 2 = .ok .done ∧ s.stepOutcome schedule 3 = .ok .breakpoint ∧
      (s.stepped schedule 4).pc = 12 ∧
      (s.stepped schedule 4).readMemory 8 8 = .ok [0, 0, 0, 0, 0xef, 0xee, 0xbe, 0xef] := by
  intro machine s schedule
  have hsize : machine.image.size = machine.memory.size := rfl
  have hlive : s.scheduler.live = true := by decide +kernel
  have harrivals : s.scheduler.arrivals = [] := by decide +kernel
  have hsteady : s.scheduler.machine.Steady :=
    ⟨by decide +kernel, by decide +kernel, by decide +kernel⟩
  obtain ⟨hiff, hsteps⟩ := steps_are_plain_cycles machine hsize { symbolsAddress := 16 } .standard
    {} false [.event (.message (.setBreakpoint 0)), .event (.message (.setBreakpoint 4))] schedule 4
    hlive harrivals hsteady
  have hok := hiff.2 (by decide +kernel)
  obtain ⟨houtcome, hseen⟩ := hsteps hok
  obtain ⟨hsnapshot, hread⟩ := hseen 4 (by decide)
  refine ⟨hsize, hlive, harrivals, hsteady, hok, ?_, ?_, ?_, ?_⟩
  · exact (houtcome 2 (by decide)).trans (congrArg _ (by decide +kernel))
  · exact (houtcome 3 (by decide)).trans (congrArg _ (by decide +kernel))
  · change (s.stepped schedule 4).scheduler.machine.snapshot.pc = 12
    rw [hsnapshot]
    decide +kernel
  · rw [hread]
    decide +kernel

end Session
end RemoteDebugger
