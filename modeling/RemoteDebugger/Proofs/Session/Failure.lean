/-
# What a request that fails has done

A request may be refused: a message of the client fails, a command of GDB is answered with an
error number.  Most requests are refused before anything has been done, and the others fail
only when the machine is shut down.  So as long as the machine is not shut down, a request
that is refused leaves the session as it was (`act_of_fails`).

There is one exception.  A *next* stops the machine before it looks for a reason to refuse, so
one that is refused has stopped a running machine, and nobody is told.
-/
import RemoteDebugger.Proofs.Session.Orderly

namespace RemoteDebugger
namespace Session

variable {s : Session} {fault : Fault}

/-- A request that is refused: a message fails, or a command that is carried out without an
answer would be answered with an error number. -/
def Fails (s : Session) : Action → Prop
  | .event (.message message) => ∃ fault, (s.handleMessage message).1 = .error fault
  | .execute command => ∃ code, (s.executeSerial command).1 = .reply (.error code)
  | _ => False

/-! ### Failing by a shutdown -/

/-- A failure is due to a shutdown. -/
def Terminal {α : Type} (result : Except Fault α × Session) : Prop :=
  ∀ fault, result.1 = .error fault → result.2.scheduler.live = false

lemma Terminal.elim {α : Type} {result : Except Fault α × Session} {p : Prop}
    (h : Terminal result) (hfault : result.1 = .error fault)
    (hlive : result.2.scheduler.live = true) : p := by
  rw [h fault hfault] at hlive
  cases hlive

lemma terminal_resume (s : Session) : Terminal s.resume := by
  intro fault
  simp only [resume]
  split
  · exact fun h => by cases h
  · split
    · exact fun h => by cases h
    · exact fun h => by cases h
    · next cause y hover =>
      intro _
      change y.live = false
      rw [← Bool.not_eq_true, (Ran.stepOver hover).2]
      rintro ⟨status, hstatus⟩
      cases hstatus

/-- The cycle of a step, over a breakpoint or not, fails only on a machine that is shut down. -/
lemma live_cycle_iff (t : Breakpoints) (x : Scheduler) :
    (t.cycle x).2.live = true ↔ ∃ status, (t.cycle x).1 = .ok status := by
  obtain ⟨lifted, restored, hcycle⟩ := t.exists_setMemory x
  rw [hcycle, Scheduler.live_setMemory]
  exact Scheduler.live_stepAndWait_iff

/-- What GDB is told of a step that ended so. -/
def stepReason (status : Status) : StopReason :=
  if status = .breakpoint then .softwareBreak else .trap

/-- A session at the end of the cycle of a step, which has left such a scheduler. -/
def afterCycle (s : Session) (y : Scheduler) : Session :=
  { s.settle.clearNextBreakpoint with scheduler := y, started := true }

/-- A step stops the machine and executes a cycle.  If the machine is then not shut down, GDB is
told how the cycle ended if it is to be told of a stop, and the client is told how things
stand. -/
inductive StepCase (s : Session) : Except Fault Status × Session → Prop where
  /-- The machine is shut down. -/
  | dead (y : Scheduler) (h : y.live = false) (fault : Fault) :
    StepCase s (.error fault, s.afterCycle y)
  /-- The cycle has been executed. -/
  | done (y : Scheduler) (h : y.live = true) (status : Status) :
    StepCase s (.ok status, ((s.afterCycle y).recordStop (stepReason status)).afterStop)

lemma stepCase (s : Session) : StepCase s s.step := by
  have hlive := live_cycle_iff s.settle.clearNextBreakpoint.breakpoints
    s.settle.clearNextBreakpoint.scheduler
  rw [Breakpoints.cycle] at hlive
  simp only [step]
  generalize (s.settle.clearNextBreakpoint.breakpoints.stepOver
    s.settle.clearNextBreakpoint.scheduler).getD _ = result at hlive ⊢
  obtain ⟨fault | status, y⟩ := result
  · refine .dead y ?_ fault
    rw [← Bool.not_eq_true, hlive]
    rintro ⟨status, hstatus⟩
    cases hstatus
  · exact .done y (hlive.2 ⟨status, rfl⟩) status

lemma terminal_step (s : Session) : Terminal s.step := by
  intro fault hfault
  have hcase := stepCase s
  generalize s.step = result at hfault hcase
  cases hcase with
  | dead y h => exact h
  | done => cases hfault

lemma terminal_restart (s : Session) : Terminal s.restart := by
  intro fault
  simp only [restart]
  split
  · exact terminal_resume _ fault
  · exact fun h => by cases h

lemma terminal_connect (s : Session) : Terminal s.connect := by
  intro fault
  simp only [connect]
  split
  · exact terminal_resume _ fault
  · exact fun h => by cases h

/-! ### Failing before anything is done -/

/-- A failure leaves the session `s` as it was. -/
def Harmless {α : Type} (s : Session) (result : Except Fault α × Session) : Prop :=
  ∀ fault, result.1 = .error fault → result.2 = s

lemma harmless_setBreakpoint (s : Session) (address : UInt32) :
    s.Harmless (s.setBreakpoint address) := by
  intro fault
  simp only [setBreakpoint]
  split
  · exact fun h => by cases h
  · split
    · exact fun _ => rfl
    · exact fun h => by cases h
    · exact fun h => by cases h

lemma harmless_unsetBreakpoint (s : Session) (address : UInt32) :
    s.Harmless (s.unsetBreakpoint address) := by
  intro fault
  simp only [unsetBreakpoint]
  split
  · exact fun _ => rfl
  · exact fun h => by cases h

lemma harmless_writeMemory (s : Session) (address : UInt32) (data : List UInt8) :
    s.Harmless (s.writeMemory address data) := by
  intro fault
  simp only [writeMemory]
  split
  · exact fun _ => rfl
  · exact fun h => by cases h

lemma harmless_watch (s : Session) (view : MemoryView) : s.Harmless (s.watch view) := by
  intro fault
  simp only [watch]
  split
  · exact fun h => by cases h
  · split
    · exact fun _ => rfl
    · exact fun h => by cases h

lemma harmless_unwatch (s : Session) (id : UInt32) : s.Harmless (s.unwatch id) := by
  intro fault
  simp only [unwatch]
  split
  · exact fun _ => rfl
  · exact fun h => by cases h

lemma harmless_loadTape (s : Session) (index : UInt32) : s.Harmless (s.loadTape index) := by
  intro fault
  simp only [loadTape]
  split
  · exact fun _ => rfl
  · exact fun h => by cases h

/-- A *next* is refused, lets the machine run or makes a step. -/
lemma next_cases (s : Session) :
    (∃ fault, s.next = (.error fault, s.settle)) ∨
      (∃ t : Session, t.gdb = s.gdb ∧ t.replies = s.replies ∧ s.next = t.resume) ∨
      s.next = (s.settle.step.1.map fun _ => (), s.settle.step.2) := by
  simp only [next]
  split
  · next fault _ => exact Or.inl ⟨fault, rfl⟩
  · split
    · split
      · exact Or.inr (Or.inl ⟨s.settle, rfl, rfl, rfl⟩)
      · next hnew =>
        split
        · next fault _ => exact Or.inl ⟨fault, rfl⟩
        · next t ht =>
          rw [Bool.not_eq_true] at hnew
          obtain ⟨breakpoints, memory, -, hset⟩ := setNextBreakpoint_eq_ok ht hnew
          exact Or.inr (Or.inl ⟨t, hset ▸ rfl, hset ▸ rfl, rfl⟩)
    · exact Or.inr (Or.inr rfl)

lemma error_of_map {α : Type} {outcome : Except Fault α}
    (h : outcome.map (fun _ => ()) = .error fault) : outcome = .error fault := by
  cases outcome with
  | error cause => exact congrArg Except.error (Except.error.inj h)
  | ok value => cases h

/-- A *next* that is refused has stopped the machine and done nothing else. -/
lemma next_of_error (h : s.next.1 = .error fault) (hlive : s.next.2.scheduler.live = true) :
    s.next.2 = s.settle := by
  -- letting the machine run and a step fail only by a shutdown
  rcases next_cases s with ⟨cause, hnext⟩ | ⟨t, -, -, hnext⟩ | hnext
  · rw [hnext]
  · rw [hnext] at h hlive
    exact (terminal_resume t).elim h hlive
  · rw [hnext] at h hlive
    exact (terminal_step s.settle).elim (error_of_map h) hlive

/-! ### Requests -/

lemma handleMessage_of_error {message : Message}
    (h : (s.handleMessage message).1 = .error fault)
    (hlive : (s.handleMessage message).2.scheduler.live = true) :
    (s.handleMessage message).2 = s ∨
      message = .next ∧ (s.handleMessage message).2 = s.settle := by
  cases message with
  | connect handshake => exact (terminal_connect s).elim h hlive
  | resume => exact (terminal_resume s).elim h hlive
  | step => exact (terminal_step s).elim (error_of_map h) hlive
  | next => exact Or.inr ⟨rfl, next_of_error h hlive⟩
  | restart => exact (terminal_restart s).elim h hlive
  | setBreakpoint address =>
    exact Or.inl (harmless_setBreakpoint s address fault (error_of_map h))
  | unsetBreakpoint address => exact Or.inl (harmless_unsetBreakpoint s address fault h)
  | memoryWatch view => exact Or.inl (harmless_watch s view fault h)
  | unwatch id => exact Or.inl (harmless_unwatch s id fault h)
  | disassembly view =>
    simp only [handleMessage] at h ⊢
    split
    · exact Or.inl rfl
    · next hlisting =>
      rw [hlisting] at h
      cases h
  | tapeLoad index => exact Or.inl (harmless_loadTape s index fault h)
  | symbolData symbols =>
    cases symbols with
    | nil => cases h
    | cons => cases h
  | _ => cases h

lemma error_of_ofResult {α : Type} {outcome : Except Fault α} {code : UInt8}
    (h : SerialOutcome.ofResult outcome = .reply (.error code)) :
    ∃ fault, outcome = .error fault := by
  cases outcome with
  | error fault => exact ⟨fault, rfl⟩
  | ok value => cases h

lemma Harmless.of_ofResult {α : Type} {result : Except Fault α × Session} {code : UInt8}
    (hharmless : s.Harmless result)
    (h : SerialOutcome.ofResult result.1 = .reply (.error code)) : result.2 = s := by
  obtain ⟨fault, hfault⟩ := error_of_ofResult h
  exact hharmless fault hfault

lemma insertWatchpoint_of_error {point : Point} {code : UInt8}
    (h : (s.insertWatchpoint point).1 = .error code) : (s.insertWatchpoint point).2 = s := by
  simp only [insertWatchpoint] at h ⊢
  split
  · rfl
  · next hlength =>
    rw [if_neg hlength] at h
    split
    · rfl
    · next hrange =>
      rw [hrange] at h
      cases h

lemma insertPoint_of_error {point : Point} {code : UInt8}
    (h : (s.insertPoint point).1 = .reply (.error code)) : (s.insertPoint point).2 = s := by
  obtain ⟨kind, address, length⟩ := point
  cases kind with
  | software => exact (harmless_setBreakpoint s address).of_ofResult h
  | hardware => exact (harmless_setBreakpoint s address).of_ofResult h
  | write => exact insertWatchpoint_of_error (SerialOutcome.reply.inj h)
  | read => cases h
  | access => exact insertWatchpoint_of_error (SerialOutcome.reply.inj h)

lemma removePoint_of_error {point : Point} {code : UInt8}
    (h : (s.removePoint point).1 = .reply (.error code)) : (s.removePoint point).2 = s := by
  obtain ⟨kind, address, length⟩ := point
  cases kind with
  | software => exact (harmless_unsetBreakpoint s address).of_ofResult h
  | hardware => exact (harmless_unsetBreakpoint s address).of_ofResult h
  | write => cases h
  | read => cases h
  | access => cases h

lemma writeRegister_of_error {index : Nat} {data : List UInt8} {code : UInt8}
    (h : (s.writeRegister index data).1 = .error code) : (s.writeRegister index data).2 = s := by
  simp only [writeRegister] at h ⊢
  split
  · next hindex =>
    rw [if_pos hindex] at h
    cases h
  · split
    · rfl
    · rfl

lemma executeSerial_of_error {command : SerialCommand} {code : UInt8}
    (h : (s.executeSerial command).1 = .reply (.error code))
    (hlive : (s.executeSerial command).2.scheduler.live = true) :
    (s.executeSerial command).2 = s := by
  cases command with
  | readRegister index => rfl
  | writeRegister index data => exact writeRegister_of_error (SerialOutcome.reply.inj h)
  | readMemory address length =>
    simp only [executeSerial]
    split
    · rfl
    · rfl
  | writeMemory address data => exact (harmless_writeMemory s address data).of_ofResult h
  | resume address =>
    simp only [executeSerial] at h hlive
    split at h
    · cases h
    · next hresume =>
      rw [hresume] at hlive
      exact (terminal_resume (s.goTo address)).elim (congrArg Prod.fst hresume) (hresume ▸ hlive)
  | step address =>
    simp only [executeSerial] at h hlive
    split at h
    · cases h
    · cases h
    · next hstep =>
      rw [hstep] at hlive
      exact (terminal_step (s.goTo address)).elim (congrArg Prod.fst hstep) (hstep ▸ hlive)
  | query query => rfl
  | insertPoint point => exact insertPoint_of_error h
  | removePoint point => exact removePoint_of_error h
  | malformed => rfl
  | _ => cases h

/-- A request that is refused, but not by a shutdown, leaves the session as it was; only a *next*
may have stopped the machine. -/
lemma act_of_fails {a : Action} (h : s.Fails a) (hlive : (s.act a).scheduler.live = true) :
    s.act a = s ∨ a = .event (.message .next) ∧ s.act a = s.settle := by
  cases a with
  | event event =>
    cases event with
    | message message =>
      obtain ⟨fault, hfault⟩ := h
      rcases handleMessage_of_error hfault hlive with hsame | ⟨rfl, hsettle⟩
      · exact Or.inl hsame
      · exact Or.inr ⟨rfl, hsettle⟩
    | _ => exact absurd h not_false
  | execute command =>
    obtain ⟨code, hcode⟩ := h
    exact Or.inl (executeSerial_of_error hcode hlive)
  | _ => exact absurd h not_false

/-! ### Sessions -/

/-- A request that is refused, on a machine that is not shut down, leaves everything in the
session as it was, unless it is a *next* and the machine runs.  That one stops the machine and
gives up the slice in flight, and changes nothing else. -/
theorem unchanged_iff_of_fails (machine : Machine) (config : Config) (disassembler : Disassembler)
    (tapes : Tapes) (connected : Bool) (actions : List Action) (a : Action) :
    let s := (create { machine } config disassembler tapes connected).run actions
    s.Fails a → (s.act a).scheduler.live = true →
      (s.act a = s ↔ ¬ (a = .event (.message .next) ∧ s.runState = .running)) ∧
        (s.act a ≠ s → s.act a = s.settle) := by
  intro s hfails hlive
  have horderly : s.core.Orderly :=
    orderly_run (orderly_create (fun h => by cases h) config disassembler tapes connected) actions
  refine ⟨⟨?_, ?_⟩, ?_⟩
  · -- a *next* that is refused leaves a stopped machine
    rintro hsame ⟨rfl, hrunning⟩
    obtain ⟨fault, hfault⟩ := hfails
    have hsettle : s.act (.event (.message .next)) = s.settle := next_of_error hfault hlive
    have hstopped : s.runState = .stopped := congrArg runState (hsame.symm.trans hsettle)
    rw [hrunning] at hstopped
    cases hstopped
  · intro hnot
    rcases act_of_fails hfails hlive with hsame | ⟨rfl, hsettle⟩
    · exact hsame
    · have hstopped : s.runState = .stopped := by
        cases hstate : s.runState with
        | stopped => rfl
        | running => exact absurd ⟨rfl, hstate⟩ hnot
      rw [hsettle]
      exact settle_of_stopped hstopped (horderly.landed hstopped)
  · intro hchanged
    rcases act_of_fails hfails hlive with hsame | ⟨-, hsettle⟩
    · exact absurd hsame hchanged
    · exact hsettle

/-- A running machine, a slice in flight on it, and a breakpoint in the middle of a word. -/
theorem unchanged_by_misaligned_breakpoint :
    let s := (create { machine := Machine.create 16 [0x01, 0, 0, 0xef] } { symbolsAddress := 16 }
      .standard {} false).run [.event (.message .resume), .advance, .advance]
    let a : Action := .event (.message (.setBreakpoint 6))
    s.Fails a ∧ (s.act a).scheduler.live = true ∧ s.runState = .running ∧ s.sliceInFlight = true ∧
      s.act a = s := by
  intro s a
  have hfails : s.Fails a := ⟨.misaligned 6, by decide +kernel⟩
  have hlive : (s.act a).scheduler.live = true := by decide +kernel
  obtain ⟨hunchanged, -⟩ := unchanged_iff_of_fails (Machine.create 16 [0x01, 0, 0, 0xef])
    { symbolsAddress := 16 } .standard {} false [.event (.message .resume), .advance, .advance] a
    hfails hlive
  refine ⟨hfails, hlive, by decide +kernel, by decide +kernel, hunchanged.2 fun hnext => ?_⟩
  have hmessage : Message.setBreakpoint 6 = .next :=
    Event.message.inj (Action.event.inj hnext.1)
  cases hmessage

/-- A machine of 16 bytes that runs at address 16, where there is no word to look at. -/
theorem stopped_by_refused_next :
    let s := (create { machine := Machine.create 16 [] } { symbolsAddress := 16 } .standard {}
      false).run [.event (.command (.resume (some 16)))]
    let a : Action := .event (.message .next)
    s.Fails a ∧ (s.act a).scheduler.live = true ∧ s.runState = .running ∧
      (s.act a).runState = .stopped ∧ (s.act a).gdb.owesStop = true ∧
      ((s.act a).act (.event .interrupt)).replies = #[] := by
  intro s a
  exact ⟨⟨.outOfRange 16 4, by decide +kernel⟩, by decide +kernel⟩

end Session
end RemoteDebugger
