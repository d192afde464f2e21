/-
# Where a session stops

A stopped session that is set going stops at the first breakpoint that its program comes to,
however many cycles a slice has.  The measure is the *plain* machine, which executes plain
memory one cycle after another and knows no breakpoints: the session stops after `k` cycles
if that is the first time that the plain machine stands on a breakpoint or a trap of its own
(`Session.FirstStop`), and then has the registers of the plain machine.  The word under a
breakpoint that the session starts on is executed first.

A running session *cruises* between its slices (`Session.Cruises`): the machine is in
lockstep with the plain one.  One slice is a run of the machine; how the slices cut the
cycles does not matter.
-/
import RemoteDebugger.Proofs.Breakpoint.StepOver
import RemoteDebugger.Proofs.Session.Orderly
import RemoteDebugger.Proofs.Session.Transparency

namespace RemoteDebugger
namespace Session

/-! ### The plain machine -/

/-- The machine with plain memory, after so many cycles. -/
def plainMachine (s : Session) (cycles : Nat) : Machine :=
  (s.scheduler.machine.withMemory (s.breakpoints.plain s.memory)).after cycles

/-- After `k` cycles the plain machine stands for the first time on a breakpoint or a trap;
the start does not count if there is a breakpoint. -/
structure FirstStop (s : Session) (k : Nat) : Prop where
  /-- There is a reason to stop. -/
  stops : s.breakpoints.Stops (s.plainMachine k)
  /-- It is not the breakpoint to start from. -/
  leaves (h : s.breakpoints.contains s.pc = true) : 1 ≤ k
  /-- There has been none before. -/
  first (i : Nat) (hi : i < k) (h : s.breakpoints.contains s.pc = true → 1 ≤ i) :
    ¬ s.breakpoints.Stops (s.plainMachine i)

/-- A stopped session that can be set going: no interrupt will disturb it, and no watched
range will stop it. -/
structure Poised (s : Session) : Prop where
  /-- The machine has not been shut down. -/
  live : s.scheduler.live = true
  /-- The session is stopped. -/
  stopped : s.runState = .stopped
  /-- The machine neither waits nor has an interrupt to deliver, and stands on a word. -/
  steady : s.scheduler.machine.Steady
  /-- GDB watches no range. -/
  unwatched : s.gdb.watchpoints = []

/-- The session set going, after so many slices. -/
def continued (s : Session) (slices : Nat) : Session := (fun s => s.advance.2)^[slices] s.resume.2

/-- The session with slices of so many cycles. -/
def withFrameCycles (s : Session) (cycles : UInt32) : Session :=
  { s with config := { s.config with frameCycles := cycles } }

/-! ### Between two slices -/

/-- A running session between two slices of so many cycles, with the given breakpoints, the
one that is to go away, and the given machine. -/
structure Cruises (s : Session) (t : Breakpoints) (next : Option UInt32) (cycles : UInt32)
    (machine : Machine) : Prop where
  /-- The machine has not been shut down. -/
  live : s.scheduler.live = true
  /-- The worker is not kept from its turn. -/
  not_waiting : s.scheduler.status ≠ .waiting
  /-- The machine is the given one. -/
  machine_eq : s.scheduler.machine = machine
  /-- The breakpoints are the given ones. -/
  breakpoints_eq : s.breakpoints = t
  /-- So is the one that is to go away. -/
  next_eq : s.nextBreakpoint = next
  /-- The session runs. -/
  running : s.runState = .running
  /-- No slice is in flight. -/
  landed : s.sliceInFlight = false
  /-- GDB watches no range. -/
  unwatched : s.gdb.watchpoints = []
  /-- A slice has so many cycles. -/
  cycles_eq : s.config.frameCycles = cycles

/-- A session that has stopped with the given registers; of the breakpoints it had, the one
that was to go away is gone. -/
structure HasStopped (s : Session) (t : Breakpoints) (next : Option UInt32)
    (registers : Registers) : Prop where
  /-- The session is stopped. -/
  stopped : s.runState = .stopped
  /-- The registers are the given ones. -/
  registers_eq : s.scheduler.machine.registers = registers
  /-- One breakpoint is gone. -/
  contains_iff (address : UInt32) : s.breakpoints.contains address = true ↔
    t.contains address = true ∧ next ≠ some address
  /-- If none was to go away, the table is as it was. -/
  breakpoints_eq (h : next = none) : s.breakpoints = t

variable {s : Session} {t : Breakpoints} {next : Option UInt32} {cycles : UInt32}
  {m : Memory} {machine : Machine}

namespace Cruises

lemma advance_eq (h : s.Cruises t next cycles machine) (hcycles : cycles ≠ 0) :
    s.advance =
      (.ok (), { s with scheduler := s.scheduler.step cycles, sliceInFlight := true }.endSlice
        (machine.run cycles.toNat).1) := by
  have hlaunch : s.launchSlice =
      { s with scheduler := s.scheduler.step cycles, sliceInFlight := true } := by
    simp only [launchSlice, sliceCycles]
    rw [h.landed, h.unwatched, h.cycles_eq]
    rfl
  have hrunning : s.isRunning = true := by rw [isRunning, h.running]; rfl
  have hpoll : (s.scheduler.step cycles).poll = .ok (some (machine.run cycles.toNat).1) := by
    rw [Scheduler.step_eq h.live h.not_waiting hcycles, h.machine_eq, Scheduler.poll, h.live]
    rfl
  simp only [advance]
  rw [hrunning, hlaunch]
  dsimp only
  rw [if_neg (by decide), hpoll]

/-- A slice that ends well leaves the session running. -/
lemma advance_of_done (h : s.Cruises t next cycles machine) (hcycles : cycles ≠ 0)
    {machine' : Machine} (hrun : machine.run cycles.toNat = (.done, machine')) :
    s.advance.1 = .ok () ∧ s.advance.2.Cruises t next cycles machine' := by
  rw [h.advance_eq hcycles, hrun]
  refine ⟨rfl, ?_⟩
  have hstep := Scheduler.step_eq h.live h.not_waiting hcycles
  rw [h.machine_eq, hrun] at hstep
  simp only [endSlice, pollWatchpoints]
  rw [if_neg (by decide), h.unwatched, List.find?_nil]
  exact
    { live := (Scheduler.live_step ..).trans h.live
      not_waiting := by
        change (s.scheduler.step cycles).status ≠ .waiting
        rw [hstep]
        exact (by decide : Status.done ≠ .waiting)
      machine_eq := by
        change (s.scheduler.step cycles).machine = machine'
        rw [hstep]
      breakpoints_eq := h.breakpoints_eq
      next_eq := h.next_eq
      running := h.running
      landed := rfl
      unwatched := by
        change s.gdb.watchpoints.map _ = []
        rw [h.unwatched, List.map_nil]
      cycles_eq := h.cycles_eq }

end Cruises

/-! ### Stopping -/

lemma registers_clearNextBreakpoint (s : Session) :
    s.clearNextBreakpoint.scheduler.machine.registers = s.scheduler.machine.registers := by
  simp only [clearNextBreakpoint]
  split
  · rfl
  · split
    · rfl
    · rfl

lemma registers_settle (s : Session) :
    s.settle.scheduler.machine.registers = s.scheduler.machine.registers := by
  simp only [settle]
  split
  · rfl
  · rfl

lemma contains_clearNextBreakpoint
    (hpromised : ∀ address, s.nextBreakpoint = some address →
      s.breakpoints.contains address = true) (address : UInt32) :
    s.clearNextBreakpoint.breakpoints.contains address = true ↔
      s.breakpoints.contains address = true ∧ s.nextBreakpoint ≠ some address := by
  simp only [clearNextBreakpoint]
  split
  · next hnone => simp [hnone]
  · next key hkey =>
    split
    · next hremove =>
      refine (Breakpoints.contains_remove hremove address).trans ?_
      rw [hkey, ne_eq, ne_eq, Option.some.injEq, eq_comm, and_comm]
    · next hremove =>
      have hmem := Breakpoints.contains_iff.1 (hpromised key hkey)
      obtain ⟨_, _, hok⟩ := Breakpoints.exists_remove hmem s.memory
      rw [hok] at hremove
      cases hremove

/-- A stop takes the breakpoint away that is to go, and leaves the registers alone. -/
lemma hasStopped_halt (hpromised : ∀ address, s.nextBreakpoint = some address →
      s.breakpoints.contains address = true) (cause : StopCause) :
    (s.halt cause).HasStopped s.breakpoints s.nextBreakpoint s.scheduler.machine.registers where
  stopped := runState_halt s cause
  registers_eq := by
    rw [scheduler_of_core (core_halt s cause)]
    exact (registers_clearNextBreakpoint s.settle).trans (registers_settle s)
  contains_iff address := by
    rw [breakpoints_of_core (core_halt s cause)]
    exact contains_clearNextBreakpoint (s := s.settle) hpromised address
  breakpoints_eq hnone := by
    rw [breakpoints_of_core (core_halt s cause)]
    change s.settle.clearNextBreakpoint.breakpoints = s.settle.breakpoints
    rw [clearNextBreakpoint, show s.settle.nextBreakpoint = none from hnone]

/-- A slice that ends on a trap stops the session. -/
lemma Cruises.advance_of_breakpoint (h : s.Cruises t next cycles machine) (hcycles : cycles ≠ 0)
    (hpromised : ∀ address, next = some address → t.contains address = true)
    {machine' : Machine} (hrun : machine.run cycles.toNat = (.breakpoint, machine')) :
    s.advance.1 = .ok () ∧ s.advance.2.HasStopped t next machine'.registers := by
  rw [h.advance_eq hcycles, hrun]
  refine ⟨rfl, ?_⟩
  have hstep := Scheduler.step_eq h.live h.not_waiting hcycles
  rw [h.machine_eq, hrun] at hstep
  rw [← h.breakpoints_eq, ← h.next_eq] at hpromised ⊢
  have hstopped := hasStopped_halt
    (s := { s with scheduler := s.scheduler.step cycles, sliceInFlight := false })
    hpromised .breakpoint
  dsimp only at hstopped
  rw [hstep] at hstopped ⊢
  exact hstopped

/-! ### Slices -/

section Slices

variable (ht : t.Installed m) (hpromised : ∀ address, next = some address →
  t.contains address = true) (hcycles : cycles ≠ 0)

include ht hcycles

/-- As long as the plain machine does not come to a stop, the session cruises. -/
lemma Cruises.advance_of_passes (h : s.Cruises t next cycles (machine.withMemory m))
    (hplain : machine.memory = t.plain m) (hsteady : machine.Steady)
    (hpasses : ∀ i < cycles.toNat, t.Passes (machine.after i)) :
    s.advance.1 = .ok () ∧
      s.advance.2.Cruises t next cycles ((machine.after cycles.toNat).withMemory m) :=
  h.advance_of_done hcycles (ht.run_of_passes hplain hsteady hpasses)

/-- A program without a stop keeps the session running. -/
lemma Cruises.advance_iterate (h : s.Cruises t next cycles (machine.withMemory m))
    (hplain : machine.memory = t.plain m) (hsteady : machine.Steady)
    (hpasses : ∀ i, t.Passes (machine.after i)) (n : Nat) :
    ∃ machine', ((fun s => s.advance.2)^[n] s).Cruises t next cycles machine' ∧
      ((fun s => s.advance.2)^[n] s).advance.1 = .ok () := by
  induction n generalizing s machine with
  | zero =>
    have hadvance := h.advance_of_passes ht hcycles hplain hsteady fun i _ => hpasses i
    exact ⟨_, h, hadvance.1⟩
  | succ n ih =>
    obtain ⟨-, hnext⟩ := h.advance_of_passes ht hcycles hplain hsteady fun i _ => hpasses i
    rw [Function.iterate_succ_apply]
    refine ih hnext ((machine.memory_after _).trans hplain)
      (hsteady.after fun i _ => (hpasses i).ne_wait) fun i => ?_
    rw [← Machine.after_add]
    exact hpasses _

include hpromised

/-- The session stops after finitely many slices, not before, where the plain machine comes
to a stop. -/
lemma Cruises.exists_stop (h : s.Cruises t next cycles (machine.withMemory m))
    (hplain : machine.memory = t.plain m) (hsteady : machine.Steady) {k : Nat}
    (hpasses : ∀ i < k, t.Passes (machine.after i)) (hstop : t.Stops (machine.after k)) :
    ∃ n, (∀ j < n, ((fun s => s.advance.2)^[j] s).runState = .running ∧
        ((fun s => s.advance.2)^[j] s).advance.1 = .ok ()) ∧
      ((fun s => s.advance.2)^[n] s).HasStopped t next (machine.after k).registers := by
  have hpositive : cycles.toNat ≠ 0 := fun hzero => hcycles (UInt32.toNat_inj.1 hzero)
  induction k using Nat.strongRecOn generalizing s machine with
  | ind k ih =>
  by_cases hk : k < cycles.toNat
  · -- the stop is within the next slice
    obtain ⟨hok, hstopped⟩ := h.advance_of_breakpoint hcycles hpromised
      (ht.run_of_stops hplain hsteady hk hpasses hstop)
    refine ⟨1, fun j hj => ?_, hstopped⟩
    obtain rfl : j = 0 := by omega
    exact ⟨h.running, hok⟩
  · obtain ⟨rest, rfl⟩ := Nat.exists_eq_add_of_le (Nat.le_of_not_lt hk)
    obtain ⟨hok, hnext⟩ := h.advance_of_passes ht hcycles hplain hsteady
      fun i hi => hpasses i (by omega)
    rw [Machine.after_add] at hstop ⊢
    obtain ⟨n, hrunning, hstopped⟩ := ih rest (by omega) hnext
      ((machine.memory_after _).trans hplain)
      (hsteady.after fun i hi => (hpasses i (by omega)).ne_wait)
      (fun i hi => by rw [← Machine.after_add]; exact hpasses _ (by omega)) hstop
    refine ⟨n + 1, fun j hj => ?_, hstopped⟩
    cases j with
    | zero => exact ⟨h.running, hok⟩
    | succ j => exact hrunning j (by omega)

end Slices

/-! ### Setting the machine going -/

/-- The step over a breakpoint is one cycle of the plain machine. -/
lemma stepOver_eq (ht : t.Installed m) {x : Scheduler} (hlive : x.live = true)
    (hstatus : x.status ≠ .waiting) (hmachine : x.machine = machine.withMemory m)
    (hplain : machine.memory = t.plain m) (hsteady : machine.Steady)
    (hwait : machine.fetch ≠ waitWord) (hcontains : t.contains machine.pc = true) :
    ∃ y status, t.stepOver x = some (.ok status, y) ∧ y.live = true ∧ y.status ≠ .waiting ∧
      y.machine = (machine.after 1).withMemory m := by
  have hpc : x.pc = machine.pc := by rw [Scheduler.pc, hmachine]; rfl
  have hcycle := ht.cycle_of_ne_wait hlive hstatus hmachine hplain hsteady hwait
  obtain ⟨result, hover⟩ := Breakpoints.exists_stepOver (hpc.symm ▸ hcontains)
  rw [Breakpoints.cycle, hover, Option.getD_some] at hcycle
  have hone : machine.after 1 = machine.cycle.2 := machine.after_succ 0
  rw [hone]
  exact ⟨_, _, hover.trans (congrArg some hcycle), hlive, hsteady.cycle_ne_waiting hwait, rfl⟩

lemma Poised.not_waiting (h : s.Poised) (horderly : s.core.Orderly) :
    s.scheduler.status ≠ .waiting := fun hwaiting =>
  absurd (h.steady.waiting.symm.trans (horderly.honest hwaiting)) (by decide)

/-- The cycle that a session set going starts from. -/
def firstCycle (s : Session) : Nat := if s.breakpoints.contains s.pc then 1 else 0

/-- A poised session that is set going cruises, from the start or, if that is a breakpoint,
from one cycle after it. -/
lemma Poised.resume (h : s.Poised) (horderly : s.core.Orderly)
    (ht : s.breakpoints.Installed s.memory)
    (hwait : s.breakpoints.contains s.pc = true → (s.plainMachine 0).fetch ≠ waitWord) :
    s.resume.1 = .ok () ∧
      s.resume.2.Cruises s.breakpoints s.nextBreakpoint s.config.frameCycles
        ((s.plainMachine s.firstCycle).withMemory s.memory) := by
  have hstatus := h.not_waiting horderly
  have hrunning : s.isRunning = false := by rw [isRunning, h.stopped]; rfl
  have hsteady : (s.plainMachine 0).Steady := h.steady.withMemory _
  have hlanded : s.sliceInFlight = false := horderly.landed h.stopped
  simp only [Session.resume, firstCycle]
  rw [hrunning, if_neg Bool.false_ne_true]
  by_cases hcontains : s.breakpoints.contains s.pc = true
  · have hmachine : s.scheduler.machine = (s.plainMachine 0).withMemory s.memory := rfl
    obtain ⟨y, status, hover, hlive, hy, hafter⟩ :=
      stepOver_eq ht h.live hstatus hmachine rfl hsteady (hwait hcontains) hcontains
    rw [hover, hcontains, if_pos rfl]
    exact ⟨rfl, hlive, hy, hafter, rfl, rfl, rfl, hlanded, h.unwatched, rfl⟩
  · have hover : s.breakpoints.stepOver s.scheduler = none :=
      Breakpoints.stepOver_of_not_contains hcontains
    rw [hover, if_neg hcontains]
    exact ⟨rfl, h.live, hstatus, rfl, rfl, rfl, rfl, hlanded, h.unwatched, rfl⟩

/-! ### The first stop -/

lemma firstCycle_le_iff {i : Nat} :
    s.firstCycle ≤ i ↔ (s.breakpoints.contains s.pc = true → 1 ≤ i) := by
  simp only [firstCycle]
  split
  · next h => simp [h]
  · next h => simp [h]

/-- Without a first stop there is none. -/
lemma not_stops_of_forall_not_firstStop (h : ∀ k, ¬ s.FirstStop k) {i : Nat}
    (hi : s.firstCycle ≤ i) : ¬ s.breakpoints.Stops (s.plainMachine i) := by
  induction i using Nat.strongRecOn with
  | ind i ih =>
    intro hstops
    refine h i ⟨hstops, firstCycle_le_iff.1 hi, ?_⟩
    intro j hj hleaves
    exact ih j hj (firstCycle_le_iff.2 hleaves)

lemma plainMachine_add (s : Session) (i j : Nat) :
    s.plainMachine (i + j) = (s.plainMachine i).after j :=
  Machine.after_add ..

lemma memory_plainMachine (s : Session) (i : Nat) :
    (s.plainMachine i).memory = s.breakpoints.plain s.memory :=
  Machine.memory_after ..

lemma Poised.steady_plainMachine (h : s.Poised) {k : Nat}
    (hwait : ∀ i < k, (s.plainMachine i).fetch ≠ waitWord) : (s.plainMachine k).Steady :=
  (h.steady.withMemory _).after hwait

lemma shows_continued {image plain : Memory} (h : s.core.Shows image plain) (n : Nat) :
    (s.continued n).core.Shows image plain := by
  simp only [continued]
  induction n with
  | zero => exact shows_resume h
  | succ n ih =>
    rw [Function.iterate_succ_apply']
    exact shows_advance ih

/-- A poised session stops where the plain machine does. -/
lemma Poised.exists_stop (h : s.Poised) (horderly : s.core.Orderly)
    (ht : s.breakpoints.Installed s.memory) (hcycles : s.config.frameCycles ≠ 0) {k : Nat}
    (hk : s.FirstStop k) (hwait : ∀ i < k, (s.plainMachine i).fetch ≠ waitWord) :
    s.resume.1 = .ok () ∧ ∃ n,
      (∀ j < n, (s.continued j).runState = .running ∧ (s.continued j).advance.1 = .ok ()) ∧
      (s.continued n).HasStopped s.breakpoints s.nextBreakpoint (s.plainMachine k).registers := by
  obtain ⟨hok, hcruises⟩ := h.resume horderly ht fun hcontains => hwait 0 (hk.leaves hcontains)
  obtain ⟨rest, rfl⟩ := Nat.exists_eq_add_of_le (firstCycle_le_iff.2 hk.leaves)
  refine ⟨hok, ?_⟩
  rw [plainMachine_add]
  refine hcruises.exists_stop ht horderly.promised hcycles (s.memory_plainMachine _)
    (h.steady_plainMachine fun i hi => hwait i (Nat.lt_add_right rest hi)) (fun i hi => ?_) ?_
  · rw [← plainMachine_add]
    exact ⟨hk.first _ (by omega) (firstCycle_le_iff.1 (by omega)), hwait _ (by omega)⟩
  · rw [← plainMachine_add]
    exact hk.stops

/-- A poised session does not stop if the plain machine never does. -/
lemma Poised.running (h : s.Poised) (horderly : s.core.Orderly)
    (ht : s.breakpoints.Installed s.memory) (hcycles : s.config.frameCycles ≠ 0)
    (hk : ∀ k, ¬ s.FirstStop k) (hwait : ∀ i, (s.plainMachine i).fetch ≠ waitWord) :
    s.resume.1 = .ok () ∧
      ∀ n, (s.continued n).runState = .running ∧ (s.continued n).advance.1 = .ok () := by
  obtain ⟨hok, hcruises⟩ := h.resume horderly ht fun _ => hwait 0
  have hpasses (i : Nat) : s.breakpoints.Passes ((s.plainMachine s.firstCycle).after i) := by
    rw [← plainMachine_add]
    exact ⟨not_stops_of_forall_not_firstStop hk (Nat.le_add_right ..), hwait _⟩
  refine ⟨hok, fun n => ?_⟩
  obtain ⟨machine, hn, hadvance⟩ := hcruises.advance_iterate ht hcycles
    (s.memory_plainMachine _) (h.steady_plainMachine fun i _ => hwait i) hpasses n
  exact ⟨hn.running, hadvance⟩

/-- A session that is set going stops at the first breakpoint that its program comes to,
whatever the size of its slices, unless the program waits before; if the program comes to
none, the session never stops.  Registers and plain memory are those of the plain machine.
The table of breakpoints is the same exactly if no breakpoint was to go away. -/
theorem continued_stops_at_first_breakpoint (scheduler : Scheduler) (config : Config)
    (disassembler : Disassembler) (tapes : Tapes) (connected : Bool)
    (hhonest : scheduler.Honest) (hsize : scheduler.machine.image.size = scheduler.memory.size)
    (actions : List Action) (cycles : UInt32) (hcycles : cycles ≠ 0) :
    let s := ((create scheduler config disassembler tapes connected).run actions).withFrameCycles
      cycles
    s.Poised →
    (∀ k, s.FirstStop k → (∀ i < k, (s.plainMachine i).fetch ≠ waitWord) →
      s.resume.1 = .ok () ∧ ∃ n,
        (∀ j < n, (s.continued j).runState = .running ∧ (s.continued j).advance.1 = .ok ()) ∧
        (s.continued n).runState = .stopped ∧
        (s.continued n).scheduler.machine.registers = (s.plainMachine k).registers ∧
        (s.continued n).breakpoints.plain (s.continued n).memory =
          s.breakpoints.plain s.memory ∧
        (∀ address, (s.continued n).breakpoints.contains address = true ↔
          s.breakpoints.contains address = true ∧ s.nextBreakpoint ≠ some address) ∧
        ((s.continued n).breakpoints = s.breakpoints ↔ s.nextBreakpoint = none)) ∧
    ((∀ k, ¬ s.FirstStop k) → (∀ i, (s.plainMachine i).fetch ≠ waitWord) →
      s.resume.1 = .ok () ∧
        ∀ n, (s.continued n).runState = .running ∧ (s.continued n).advance.1 = .ok ()) := by
  intro s hpoised
  have horderly : s.core.Orderly :=
    orderly_run (orderly_create hhonest config disassembler tapes connected) actions
  obtain ⟨plain, hshows⟩ : ∃ plain, s.core.Shows scheduler.machine.image plain :=
    ⟨_, invariant_run (I := fun s plain => s.core.Shows scheduler.machine.image plain)
      (fun s plain a => shows_act s plain a)
      (shows_create scheduler config disassembler tapes connected hsize) actions⟩
  refine ⟨fun k hk hwait => ?_, hpoised.running horderly hshows.installed hcycles⟩
  obtain ⟨hok, n, hrunning, hstopped⟩ :=
    hpoised.exists_stop horderly hshows.installed hcycles hk hwait
  refine ⟨hok, n, hrunning, hstopped.stopped, hstopped.registers_eq, ?_, hstopped.contains_iff, ?_,
    hstopped.breakpoints_eq⟩
  · exact (shows_continued hshows n).plain_eq.trans hshows.plain_eq.symm
  · intro hsame
    rw [Option.eq_none_iff_forall_ne_some]
    intro address haddress
    have hcontains := horderly.promised address haddress
    exact ((hstopped.contains_iff address).1 (hsame ▸ hcontains)).2 haddress

/-- With a breakpoint at address 8 a session that starts from address 0 stops there, also if
each slice is one cycle, and keeps the breakpoint. -/
theorem continued_stops_at_eight :
    let s := ((create { machine := Machine.create 16 [] } { symbolsAddress := 16 } .standard {}
      false).run [.event (.message (.setBreakpoint 8))]).withFrameCycles 1
    s.Poised ∧ ∃ n, (s.continued n).runState = .stopped ∧ (s.continued n).pc = 8 ∧
      (s.continued n).breakpoints = s.breakpoints := by
  intro s
  have hpoised : s.Poised :=
    { live := by decide +kernel
      stopped := by decide +kernel
      steady := ⟨by decide +kernel, by decide +kernel, by decide +kernel⟩
      unwatched := List.isEmpty_iff.1 (by decide +kernel) }
  have hwait : ∀ i < 2, (s.plainMachine i).fetch ≠ waitWord := by decide +kernel
  have hfirst : s.FirstStop 2 :=
    { stops := by decide +kernel
      leaves := fun _ => by decide
      first := fun i hi _ => (by decide +kernel :
        ∀ i < 2, ¬ s.breakpoints.Stops (s.plainMachine i)) i hi }
  have hstops := (continued_stops_at_first_breakpoint { machine := Machine.create 16 [] }
    { symbolsAddress := 16 } .standard {} false (fun h => by cases h) rfl
    [.event (.message (.setBreakpoint 8))] 1 (by decide) hpoised).1
  obtain ⟨-, n, -, hstopped, hregisters, -, -, hsame⟩ := hstops 2 hfirst hwait
  refine ⟨hpoised, n, hstopped, ?_, hsame.2 (by decide +kernel)⟩
  change (s.continued n).scheduler.machine.registers[15] = 8
  rw [hregisters]
  decide +kernel

/-- A *next* over the call at address 0, given up by another one that cannot read the word at
the program counter, leaves a stopped session whose next stop takes a breakpoint away. -/
theorem continued_loses_breakpoint :
    let s := ((create { machine := Machine.create 16 [0, 0, 0, 0xeb] } { symbolsAddress := 16 }
      .standard {} false).run [.event (.message .next),
        .execute (.writeRegister 15 [0, 0, 0, 0x40]), .event (.message .next)]).withFrameCycles 16
    s.Poised ∧ s.FirstStop 2 ∧ (∀ i < 2, (s.plainMachine i).fetch ≠ waitWord) ∧
      (s.continued 1).runState = .stopped ∧ s.breakpoints.contains 4 = true ∧
      (s.continued 1).breakpoints.contains 4 = false := by
  intro s
  refine ⟨⟨by decide +kernel, by decide +kernel, ?_, ?_⟩, ⟨by decide +kernel, ?_, ?_⟩,
    by decide +kernel, by decide +kernel, by decide +kernel, by decide +kernel⟩
  · exact ⟨by decide +kernel, by decide +kernel, by decide +kernel⟩
  · exact List.isEmpty_iff.1 (by decide +kernel)
  · exact fun _ => by decide
  · exact fun i hi _ => (by decide +kernel :
      ∀ i < 2, ¬ s.breakpoints.Stops (s.plainMachine i)) i hi

end Session
end RemoteDebugger
