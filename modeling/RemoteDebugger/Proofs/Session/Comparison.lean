/-
# When a change behind the session's back is seen

Others than the session may write the machine's memory.  If such a change falls into a range
that GDB watches, the session finds it when it compares what the watchpoints have last seen
with what is there now, and it does that at the end of a slice and nowhere else.  An instruction
that is executed by a step, or when the machine is let run on a breakpoint, is not followed by a
comparison.  A write of GDB lets all watchpoints see what their ranges hold now, so that a change
that nobody was told of is taken for known.

These are the only ways to miss a change (`Session.stoppedFor_iff_of_executes`): until then it is
pending, whatever the session does that neither looks at the watched ranges nor sets or takes
away watchpoints (`Session.Undisturbed`).
-/
import RemoteDebugger.Proofs.Session.Watchpoint

namespace RemoteDebugger

/-- What can happen to a session and its machine. -/
inductive Move where
  /-- Something happens to the session. -/
  | act (a : Action)
  /-- The machine is changed behind the session's back. -/
  | alter (f : Machine → Machine)

-- Not derived: what a range held is compared as an array of bytes.
instance : DecidableEq Watchpoint := fun v w =>
  decidable_of_iff (v.kind = w.kind ∧ v.address = w.address ∧ v.length = w.length ∧
      v.last.data = w.last.data) (by
    cases v
    cases w
    simp [ByteArray.ext_iff])

namespace Session

variable {s t : Session} {a : Action} {w : Watchpoint}

/-- Let something happen to the session or its machine. -/
def move (s : Session) : Move → Session
  | .act a => s.act a
  | .alter f => s.onMachine f

/-- Let such things happen one after another. -/
def moved (s : Session) (moves : List Move) : Session := moves.foldl move s

/-! ### Breakpoints stand at addresses of words -/

lemma aligned_restart (h : s.breakpoints.Aligned) : s.restart.2.breakpoints.Aligned := by
  have hreset : s.afterReset.breakpoints.Aligned := (keeps_cleared s).aligned h
  have hstop := (keeps_afterStop s.afterReset).aligned hreset
  rw [restart_eq]
  split
  · exact (keeps_resume _).aligned hstop
  · exact hstop

lemma aligned_advance (h : s.breakpoints.Aligned) : s.advance.2.breakpoints.Aligned := by
  have hlaunched := (keeps_launchSlice s).aligned h
  have hcase := sliceCase s
  generalize s.advance.2 = t at hcase
  cases hcase with
  | idle => exact h
  | flying => exact hlaunched
  | ended hrunning status hpoll _ hend =>
    cases hend with
    | trapped => exact (keeps_halt s.launchSlice.landed _).aligned hlaunched
    | changed => exact (keeps_halt s.launchSlice.landed.refreshWatchpoints _).aligned hlaunched
    | unchanged => exact hlaunched

lemma aligned_operate (h : s.breakpoints.Aligned) (op : Operation) :
    (s.operate op).breakpoints.Aligned := by
  cases op with
  | halt cause => exact (keeps_halt s cause).aligned h
  | resume => exact (keeps_resume s).aligned h
  | step => exact (keeps_step s).aligned h
  | next => exact (keeps_next s).aligned h
  | restart => exact aligned_restart h
  | advance => exact aligned_advance h
  | setBreakpoint address => exact (keeps_setBreakpoint s address).aligned h
  | unsetBreakpoint address => exact (keeps_unsetBreakpoint s address).aligned h
  | write address data =>
    simp only [operate, writeMemory]
    split
    · exact h
    · next hwrite => exact Breakpoints.aligned_of_write h hwrite

lemma aligned_act (h : s.breakpoints.Aligned) (a : Action) : (s.act a).breakpoints.Aligned :=
  core_act (I := fun c => c.breakpoints.Aligned)
    (fun hstirred h => by
      change Breakpoints.Aligned (Session.breakpoints _)
      rw [hstirred.breakpoints]
      exact h)
    (fun op h => aligned_operate h op) h a

lemma aligned_run (h : s.breakpoints.Aligned) (actions : List Action) :
    (s.run actions).breakpoints.Aligned :=
  core_run (I := fun c => c.breakpoints.Aligned) (fun a h => aligned_act h a) h actions

lemma aligned_moved (h : s.breakpoints.Aligned) (moves : List Move) :
    (s.moved moves).breakpoints.Aligned := by
  induction moves generalizing s with
  | nil => exact h
  | cons move rest ih =>
    cases move with
    | act a => exact ih (aligned_act h a)
    | alter f => exact ih (s := s.onMachine f) h

/-! ### A change is pending -/

lemma Keeps.changed?_eq (h : Keeps s t) (hs : s.breakpoints.Aligned) : t.changed? = s.changed? := by
  have hchanged : t.hasChanged = s.hasChanged := by
    funext w
    rw [hasChanged, hasChanged, look, look, h.range_eq hs]
  rw [changed?, changed?, h.watchpoints, hchanged]

/-- Watchpoints that have seen all that there is find no change. -/
lemma changed?_refreshWatchpoints (s : Session) : s.refreshWatchpoints.changed? = none := by
  refine List.find?_eq_none.2 fun w hw => ?_
  obtain ⟨old, -, rfl⟩ := List.mem_map.1 hw
  have hlook : s.refreshWatchpoints.look (s.look old) = s.look old := by
    change s.look (s.look old) = s.look old
    cases hrange : s.range old.address old.length.toNat with
    | error fault =>
      have hold : s.look old = old := by rw [look, hrange]
      rw [hold, hold]
    | ok now =>
      have hold : s.look old = { old with last := now } := by rw [look, hrange]
      rw [hold, look]
      dsimp only
      rw [hrange]
  rw [hasChanged, hlook]
  simp [ByteArray.beq]

/-- A write of GDB that succeeds. -/
inductive Writes (s : Session) : Action → Prop where
  /-- A command. -/
  | command (address : UInt32) (data : List UInt8) (h : (s.writeMemory address data).1 = .ok ()) :
    Writes s (.event (.command (.writeMemory address data)))
  /-- A command that is carried out without an answer. -/
  | execute (address : UInt32) (data : List UInt8) (h : (s.writeMemory address data).1 = .ok ()) :
    Writes s (.execute (.writeMemory address data))

/-- Along a run, every action leaves alone what is watched, or writes memory. -/
def Undisturbed (s : Session) : List Action → Prop
  | [] => True
  | a :: rest => (s.Spares a ∨ s.Writes a) ∧ Undisturbed (s.act a) rest

/-- Along a run, GDB writes memory. -/
def WritesAlong (s : Session) : List Action → Prop
  | [] => False
  | a :: rest => s.Writes a ∨ WritesAlong (s.act a) rest

lemma changed?_writeMemory {address : UInt32} {data : List UInt8}
    (h : (s.writeMemory address data).1 = .ok ()) :
    (s.writeMemory address data).2.changed? = none := by
  simp only [writeMemory] at h ⊢
  split
  · next fault hwrite =>
    rw [hwrite] at h
    cases h
  · exact changed?_refreshWatchpoints _

/-- After a write nothing is pending. -/
lemma Writes.changed?_eq_none (h : s.Writes a) : (s.act a).changed? = none := by
  cases h with
  | command address data hwrite =>
    refine handleSerial_of_execute (P := fun t => t.changed? = none) (fun _ _ ht => ht)
      (fun _ _ ht => ht) (fun _ heq => by cases heq) fun _ => changed?_writeMemory hwrite
  | execute address data hwrite => exact changed?_writeMemory hwrite

lemma changed?_run_of_none {between : List Action} (h : s.Undisturbed between)
    (hs : s.breakpoints.Aligned) (hnone : s.changed? = none) :
    (s.run between).changed? = none := by
  induction between generalizing s with
  | nil => exact hnone
  | cons a rest ih =>
    obtain ⟨ha, hrest⟩ := h
    refine ih hrest (aligned_act hs a) ?_
    rcases ha with hspares | hwrites
    · exact ((keeps_act hspares).changed?_eq hs).trans hnone
    · exact hwrites.changed?_eq_none

/-- A change is pending until GDB writes memory. -/
lemma changed?_run_of_not_writesAlong {between : List Action} (h : s.Undisturbed between)
    (hs : s.breakpoints.Aligned) (hwrites : ¬ s.WritesAlong between) :
    (s.run between).changed? = s.changed? := by
  induction between generalizing s with
  | nil => rfl
  | cons a rest ih =>
    obtain ⟨ha, hrest⟩ := h
    have hspares : s.Spares a := ha.resolve_right fun hw => hwrites (.inl hw)
    exact (ih hrest (aligned_act hs a) fun hw => hwrites (.inr hw)).trans
      ((keeps_act hspares).changed?_eq hs)

lemma changed?_run_of_writesAlong {between : List Action} (h : s.Undisturbed between)
    (hs : s.breakpoints.Aligned) (hwrites : s.WritesAlong between) :
    (s.run between).changed? = none := by
  induction between generalizing s with
  | nil => exact hwrites.elim
  | cons a rest ih =>
    obtain ⟨-, hrest⟩ := h
    rcases hwrites with hwrites | hwrites
    · exact changed?_run_of_none (s := s.act a) hrest (aligned_act hs a) hwrites.changed?_eq_none
    · exact ih hrest (aligned_act hs a) hwrites

/-! ### Instructions -/

/-- Letting the machine run executes the word under a breakpoint. -/
def StepsOver (s : Session) : Prop :=
  s.runState = .stopped ∧ ∃ status y, status ≠ .breakpoint ∧
    s.breakpoints.stepOver s.scheduler = some (.ok status, y)

/-- An action in which an instruction is executed and no trap is come to. -/
inductive Executes (s : Session) : Action → Prop where
  /-- A step of the client. -/
  | step (status : Status) (hstatus : status ≠ .breakpoint) (h : s.step.1 = .ok status) :
    Executes s (.event (.message .step))
  /-- A step of GDB. -/
  | commandStep (address : Option UInt32) (status : Status) (hstatus : status ≠ .breakpoint)
    (h : (s.goTo address).step.1 = .ok status) : Executes s (.event (.command (.step address)))
  /-- A step of GDB that is carried out without an answer. -/
  | executeStep (address : Option UInt32) (status : Status) (hstatus : status ≠ .breakpoint)
    (h : (s.goTo address).step.1 = .ok status) : Executes s (.execute (.step address))
  /-- The client lets the machine run, which stands on a breakpoint. -/
  | resume (h : s.StepsOver) : Executes s (.event (.message .resume))
  /-- GDB lets the machine run. -/
  | commandResume (address : Option UInt32) (h : (s.goTo address).StepsOver) :
    Executes s (.event (.command (.resume address)))
  /-- GDB lets the machine run without an answer. -/
  | executeResume (address : Option UInt32) (h : (s.goTo address).StepsOver) :
    Executes s (.execute (.resume address))
  /-- A slice. -/
  | slice (h : s.EndsSlice) : Executes s .advance

/-- The session has stopped because the range of a watchpoint has changed. -/
def StoppedFor (s : Session) (w : Watchpoint) : Prop :=
  s.runState = .stopped ∧ s.gdb.lastStop = .watch w.kind w.address

lemma not_stoppedFor_of_running (h : s.runState = .running) : ¬ s.StoppedFor w :=
  fun hstopped => absurd (h.symm.trans hstopped.1) (by decide)

lemma not_stoppedFor_step {status : Status} (h : s.step.1 = .ok status) :
    ¬ s.step.2.StoppedFor w := by
  rintro ⟨-, hstop⟩
  have hcase := stepCase s
  generalize s.step = result at h hstop hcase
  cases hcase with
  | dead y hdead fault => cases h
  | done y hlive status =>
    have hreason : stepReason status = .watch w.kind w.address := by
      rw [← hstop]
      change _ = (Session.dialogue _).lastStop
      rw [dialogue_afterStop, dialogue_recordStop]
      rfl
    simp only [stepReason] at hreason
    split at hreason
    · cases hreason
    · cases hreason

lemma StepsOver.runState_resume (h : s.StepsOver) : s.resume.2.runState = .running := by
  obtain ⟨hstopped, status, y, -, hover⟩ := h
  have hrunning : ¬ s.isRunning = true := by
    rw [isRunning_iff, hstopped]
    decide
  rw [resume, if_neg hrunning, hover]

/-- What an action executes otherwise than in a slice is not compared. -/
lemma not_stoppedFor_of_executes (h : s.Executes a) (ha : a ≠ .advance) :
    ¬ (s.act a).StoppedFor w := by
  cases h with
  | step status hstatus hstep => exact not_stoppedFor_step hstep
  | commandStep address status hstatus hstep =>
    refine handleSerial_of_execute (P := fun t => ¬ t.StoppedFor w) (fun _ _ ht => ht)
      (fun _ _ ht => ht) (fun _ heq => by cases heq) fun _ => ?_
    rw [executeSerial_step]
    exact not_stoppedFor_step hstep
  | executeStep address status hstatus hstep =>
    change ¬ (s.executeSerial (.step address)).2.StoppedFor w
    rw [executeSerial_step]
    exact not_stoppedFor_step hstep
  | resume hover => exact not_stoppedFor_of_running hover.runState_resume
  | commandResume address hover =>
    have hgo : ((s.setOwesStop true).goTo address).StepsOver := by
      cases address with
      | none => exact hover
      | some address => exact hover
    refine handleSerial_of_execute (P := fun t => ¬ t.StoppedFor w) (fun _ _ ht => ht)
      (fun _ _ ht => ht) (fun _ _ => ?_) fun hne => absurd rfl (hne address)
    rw [executeSerial_resume]
    exact not_stoppedFor_of_running hgo.runState_resume
  | executeResume address hover =>
    change ¬ (s.executeSerial (.resume address)).2.StoppedFor w
    rw [executeSerial_resume]
    exact not_stoppedFor_of_running hover.runState_resume
  | slice => exact absurd rfl ha

/-! ### Slices -/

/-- A slice that is over is followed by a comparison. -/
lemma EndsSlice.compares (h : s.EndsSlice) (hs : s.breakpoints.Aligned) :
    (∃ w, s.changed? = some w ∧ s.advance.2 =
      s.launchSlice.landed.refreshWatchpoints.halt (.watchpoint w.kind w.address)) ∨
    s.changed? = none ∧ s.advance.2 = s.launchSlice.landed.refreshWatchpoints := by
  obtain ⟨hrunning, status, hstatus, hpoll⟩ := h
  have hchanged := (keeps_launchSlice s).changed?_eq hs
  have hcase := sliceCase s
  generalize s.advance.2 = t at hcase
  cases hcase with
  | idle hidle => exact absurd (hrunning.symm.trans hidle) (by decide)
  | flying _ hflying => exact absurd hpoll (hflying status)
  | ended _ status' hpoll' _ hend =>
    obtain rfl : status = status' := Option.some.inj (Except.ok.inj (hpoll.symm.trans hpoll'))
    cases hend with
    | trapped => exact absurd rfl hstatus
    | changed _ _ w hw => exact .inl ⟨w, hchanged.symm.trans hw, rfl⟩
    | unchanged _ _ hnone => exact .inr ⟨hchanged.symm.trans hnone, rfl⟩

lemma stoppedFor_advance (h : s.EndsSlice) (hs : s.breakpoints.Aligned)
    (hw : s.changed? = some w) : s.advance.2.StoppedFor w := by
  rcases h.compares hs with ⟨w', hw', hhalt⟩ | ⟨hnone, -⟩
  · obtain rfl : w' = w := Option.some.inj (hw'.symm.trans hw)
    rw [hhalt]
    exact ⟨runState_halt _ _, congrArg Dialogue.lastStop (dialogue_halt _ _)⟩
  · rw [hw] at hnone
    cases hnone

lemma not_stoppedFor_advance (h : s.EndsSlice) (hs : s.breakpoints.Aligned)
    (hnone : s.changed? = none) : ¬ s.advance.2.StoppedFor w := by
  rcases h.compares hs with ⟨w', hw', -⟩ | ⟨-, hlanded⟩
  · rw [hnone] at hw'
    cases hw'
  · rw [hlanded]
    exact not_stoppedFor_of_running ((runState_launchSlice s).trans h.1)

/-- While GDB watches a range a slice is one cycle. -/
lemma EndsSlice.machine_eq (h : s.EndsSlice) (hflight : s.sliceInFlight = false)
    (hw : s.changed? = some w) :
    s.launchSlice.scheduler.machine = s.scheduler.machine.cycle.2 := by
  obtain ⟨-, status, -, hpoll⟩ := h
  have hcycles : s.sliceCycles = 1 := by
    have hne : s.gdb.watchpoints.isEmpty = false := by
      cases hlist : s.gdb.watchpoints with
      | nil =>
        rw [changed?, hlist] at hw
        cases hw
      | cons => rfl
    rw [sliceCycles, if_neg (by simp [hne])]
  have hlaunched : s.launchSlice.scheduler = (s.scheduler.request 1).work := by
    rw [launchSlice, if_neg (by simp [hflight]), hcycles]
    rfl
  rw [hlaunched] at hpoll ⊢
  by_cases hready : (s.scheduler.request 1).ready = true
  · rw [Scheduler.work, if_pos hready, ← Machine.run_one]
    rfl
  · -- without a turn of the worker the cycle would still be owed
    rw [Scheduler.work, if_neg hready, Scheduler.poll] at hpoll
    split at hpoll
    · cases hpoll
    · cases hpoll

/-- Stopping does nothing to the processor. -/
lemma snapshot_halt (s : Session) (cause : StopCause) :
    (s.halt cause).scheduler.machine.snapshot = s.scheduler.machine.snapshot := by
  have hsettle : s.settle.scheduler.machine = s.scheduler.machine := by
    change (if _ then _ else _ : Scheduler).machine = _
    split
    · rfl
    · rfl
  rw [scheduler_of_core (core_halt s cause), ← hsettle]
  change s.settle.clearNextBreakpoint.scheduler.machine.snapshot = _
  simp only [clearNextBreakpoint]
  split
  · rfl
  · split
    · rfl
    · rfl

/-! ### What becomes of a change -/

/-- A change behind the session's back is pending, and the first watchpoint that has not seen it
is `w`.  Then things happen that leave alone what is watched, and GDB may write memory; and then
an instruction is executed.  The session stops for `w` exactly if that was in a slice and nothing
has been written meanwhile; and if no slice was in flight, that instruction is all that has been
executed. -/
theorem stoppedFor_iff_of_executes (scheduler : Scheduler) (config : Config)
    (disassembler : Disassembler) (tapes : Tapes) (connected : Bool) (moves : List Move)
    (w : Watchpoint) (between : List Action) (a : Action) :
    let s := (create scheduler config disassembler tapes connected).moved moves
    let t := s.run between
    s.changed? = some w → s.Undisturbed between → t.Executes a →
      ((t.act a).StoppedFor w ↔ a = .advance ∧ ¬ s.WritesAlong between) ∧
      ((t.act a).StoppedFor w → t.sliceInFlight = false →
        (t.act a).scheduler.machine.snapshot = t.scheduler.machine.cycle.2.snapshot) := by
  intro s t hw hbetween hexecutes
  have hs : s.breakpoints.Aligned := by
    refine aligned_moved ?_ moves
    rw [breakpoints_of_core (core_create ..)]
    exact Breakpoints.aligned_empty
  have ht : t.breakpoints.Aligned := aligned_run hs between
  have hiff : (t.act a).StoppedFor w ↔ a = .advance ∧ ¬ s.WritesAlong between := by
    constructor
    · intro hstopped
      have ha : a = .advance := by
        by_contra ha
        exact not_stoppedFor_of_executes hexecutes ha hstopped
      subst ha
      refine ⟨rfl, fun hwrites => ?_⟩
      cases hexecutes with
      | slice hend =>
        have hnone : t.changed? = none := changed?_run_of_writesAlong hbetween hs hwrites
        exact not_stoppedFor_advance hend ht hnone hstopped
    · rintro ⟨rfl, hwrites⟩
      cases hexecutes with
      | slice hend =>
        have hpending := changed?_run_of_not_writesAlong hbetween hs hwrites
        exact stoppedFor_advance hend ht (hpending.trans hw)
  refine ⟨hiff, fun hstopped hflight => ?_⟩
  obtain ⟨rfl, hwrites⟩ := hiff.1 hstopped
  cases hexecutes with
  | slice hend =>
    have hpending : t.changed? = some w :=
      (changed?_run_of_not_writesAlong hbetween hs hwrites).trans hw
    rcases hend.compares ht with ⟨w', -, hhalt⟩ | ⟨hnone, -⟩
    · change t.advance.2.scheduler.machine.snapshot = _
      rw [hhalt, snapshot_halt, ← hend.machine_eq hflight hpending]
      rfl
    · rw [hpending] at hnone
      cases hnone

/-- A word is written behind the session's back and the machine let run: the slice that follows
is one cycle, and stops the machine. -/
theorem stoppedFor_in_slice :
    let moves : List Move :=
      [.act (.event .attached),
        .act (.execute (.insertPoint { kind := .write, address := 32, length := 4 })),
        .alter fun machine => { machine with memory := machine.memory.setWord 32 1 }]
    let s := (create { machine := Machine.create 64 [] } { symbolsAddress := 64 } .standard {}
      false).moved moves
    let w : Watchpoint := { kind := .write, address := 32, length := 4, last := ⟨#[0, 0, 0, 0]⟩ }
    let t := s.run [.event (.command (.resume none))]
    s.changed? = some w ∧ s.Undisturbed [.event (.command (.resume none))] ∧
      t.Executes .advance ∧ (t.act .advance).StoppedFor w ∧ (t.act .advance).pc = 4 ∧
      (t.act .advance).replies.toList = [.stop (.watch .write 32)] := by
  intro moves s w t
  have hw : s.changed? = some w := by decide +kernel
  have hbetween : s.Undisturbed [.event (.command (.resume none))] := ⟨.inl trivial, trivial⟩
  have hexecutes : t.Executes .advance :=
    .slice ⟨by decide +kernel, .done, by decide, by decide +kernel⟩
  have hwrites : ¬ s.WritesAlong [.event (.command (.resume none))] := by
    rintro (hwrites | hwrites)
    · cases hwrites
    · exact hwrites
  have hiff := stoppedFor_iff_of_executes { machine := Machine.create 64 [] }
    { symbolsAddress := 64 } .standard {} false moves w [.event (.command (.resume none))] .advance
    hw hbetween hexecutes
  exact ⟨hw, hbetween, hexecutes, hiff.1.2 ⟨rfl, hwrites⟩, by decide +kernel, by decide +kernel⟩

/-- A word is written behind the session's back.  A step that follows does not tell of it; nor
does a slice after GDB has written somewhere else. -/
theorem change_unseen :
    let s := (create { machine := Machine.create 64 [] } { symbolsAddress := 64 } .standard {}
        false).moved
      [.act (.event .attached),
        .act (.execute (.insertPoint { kind := .write, address := 32, length := 4 })),
        .alter fun machine => { machine with memory := machine.memory.setWord 32 1 }]
    let stepped := s.act (.event (.command (.step none)))
    let written := s.run
      [.execute (.writeMemory 48 [5]), .event (.command (.resume none)), .advance]
    s.changed?.map (·.address) = some 32 ∧
      stepped.pc = 4 ∧ stepped.gdb.lastStop = .trap ∧ stepped.replies.toList = [.stop .trap] ∧
      written.pc = 4 ∧ written.runState = .running := by
  decide +kernel

end Session
end RemoteDebugger
