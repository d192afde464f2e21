/-
# Sessions over time

What happens to a session is a sequence of *actions*: events from its connections, slices,
and what devices and the surroundings of the machine do.  Running them one after another
gives every state that a session can be in.

For the core of a session an action comes down to at most one operation
(`Session.operation?`), which may be preceded by a change from outside that leaves memory
alone (`Session.follows_act`).  So an invariant of the core has one lemma for each operation
and one for such changes.
-/
import RemoteDebugger.Proofs.Session.Core
import RemoteDebugger.Session.Event

namespace RemoteDebugger

/-! ### Actions -/

/-- What can happen to a session. -/
inductive Action where
  /-- Something comes from a connection. -/
  | event (event : Event)
  /-- A command of GDB is carried out without an answer. -/
  | execute (command : SerialCommand)
  /-- One slice. -/
  | advance
  /-- A device asserts an interrupt. -/
  | interrupt (irq : Interrupt)
  /-- These interrupts will come when a caller is blocked. -/
  | expect (arrivals : List Interrupt)
  /-- The machine is shut down. -/
  | shutdown
  /-- The symbols may have changed. -/
  | invalidate
  /-- The connection for reports is opened or closed. -/
  | connected (value : Bool)

namespace Session

/-- Let something happen. -/
def act (s : Session) : Action → Session
  | .event event => (s.handle event).2
  | .execute command => (s.executeSerial command).2
  | .advance => s.advance.2
  | .interrupt irq => { s with scheduler := s.scheduler.interrupt irq }
  | .expect arrivals => { s with scheduler := { s.scheduler with arrivals } }
  | .shutdown => { s with scheduler := s.scheduler.shutdown }
  | .invalidate => { s with invalidated := true }
  | .connected value => { s with connected := value }

/-- Let things happen one after another. -/
def run (s : Session) (actions : List Action) : Session := actions.foldl act s

@[simp] lemma run_nil (s : Session) : s.run [] = s := rfl

lemma run_append (s : Session) (actions more : List Action) :
    s.run (actions ++ more) = (s.run actions).run more :=
  List.foldl_append ..

/-- A quantity that no session has, followed along a run: what it is at the end. -/
def follow {γ : Type} (change : Session → γ → Action → γ) : Session → γ → List Action → γ
  | _, g, [] => g
  | s, g, a :: rest => follow change (s.act a) (change s g a) rest

lemma follow_append {γ : Type} {change : Session → γ → Action → γ} (s : Session) (g : γ)
    (actions more : List Action) :
    follow change s g (actions ++ more) =
      follow change (s.run actions) (follow change s g actions) more := by
  induction actions generalizing s g with
  | nil => rfl
  | cons a rest ih => exact ih (s.act a) (change s g a)

/-- What every action keeps is kept by every run. -/
lemma invariant_run {γ : Type} {change : Session → γ → Action → γ} {I : Session → γ → Prop}
    (hact : ∀ s g a, I s g → I (s.act a) (change s g a)) {s : Session} {g : γ} (h : I s g)
    (actions : List Action) : I (s.run actions) (follow change s g actions) := by
  induction actions generalizing s g with
  | nil => exact h
  | cons a rest ih => exact ih (hact s g a h)

/-! ### The operation of an action -/

/-- The operation that a message asks for. -/
def messageOperation? (s : Session) : Message → Option Operation
  | .connect _ => if !s.started && !s.isRunning then some .resume else none
  | .stop => some (.halt .requested)
  | .resume => some .resume
  | .step => some .step
  | .next => some .next
  | .restart => some .restart
  | .setBreakpoint address => some (.setBreakpoint address)
  | .unsetBreakpoint address => some (.unsetBreakpoint address)
  | _ => none

/-- The operation that a command of GDB asks for. -/
def commandOperation? : SerialCommand → Option Operation
  | .writeMemory address data => some (.write address data)
  | .resume _ => some .resume
  | .step _ => some .step
  | .insertPoint { kind := .software, address, .. } => some (.setBreakpoint address)
  | .insertPoint { kind := .hardware, address, .. } => some (.setBreakpoint address)
  | .removePoint { kind := .software, address, .. } => some (.unsetBreakpoint address)
  | .removePoint { kind := .hardware, address, .. } => some (.unsetBreakpoint address)
  | _ => none

/-- The operation that an event asks for. -/
def eventOperation? (s : Session) : Event → Option Operation
  | .message message => s.messageOperation? message
  | .peerLost => none
  | .attached => some (.halt .attached)
  | .command command => commandOperation? command
  | .interrupt => if s.isRunning then some (.halt .interrupted) else none
  | .detached => if s.gdb.attached then some .resume else none

/-- The operation that an action comes down to. -/
def operation? (s : Session) : Action → Option Operation
  | .event event => s.eventOperation? event
  | .execute command => commandOperation? command
  | .advance => some .advance
  | _ => none

/-! ### What comes before an operation -/

/-- A change of a scheduler from outside: no cycles are asked for. -/
inductive Disturbed (x : Scheduler) : Scheduler → Prop where
  /-- Nothing changes. -/
  | not : Disturbed x x
  /-- Registers are written. -/
  | registers (registers : Registers) :
    Disturbed x (x.onMachine fun machine => { machine with registers })
  /-- A device asserts an interrupt. -/
  | interrupt (irq : Interrupt) : Disturbed x (x.interrupt irq)
  /-- Interrupts are announced. -/
  | arrivals (arrivals : List Interrupt) : Disturbed x { x with arrivals }
  /-- The machine is shut down. -/
  | shutdown : Disturbed x x.shutdown

lemma Disturbed.contents {x y : Scheduler} (h : Disturbed x y) : y.contents = x.contents := by
  cases h with
  | interrupt irq => exact Scheduler.contents_interrupt x irq
  | _ => rfl

lemma Disturbed.live {x y : Scheduler} (h : Disturbed x y) (hy : y.live = true) :
    x.live = true := by
  cases h with
  | interrupt irq => rwa [Scheduler.live_interrupt] at hy
  | shutdown => exact absurd hy (by simp [Scheduler.shutdown])
  | _ => exact hy

/-- A session whose core is that of another but for a disturbance of the scheduler. -/
structure Stirred (s s' : Session) : Prop where
  /-- The scheduler has been disturbed. -/
  scheduler : Disturbed s.scheduler s'.scheduler
  /-- The rest of the core is as it was. -/
  core : s'.core = { s.core with scheduler := s'.scheduler }

namespace Stirred

variable {s s' : Session}

lemma of_core (h : s'.core = s.core) : Stirred s s' := by
  have hscheduler : s'.scheduler = s.scheduler := congrArg Core.scheduler h
  exact ⟨hscheduler ▸ .not, by rw [h, hscheduler]; rfl⟩

lemma breakpoints (h : Stirred s s') : s'.breakpoints = s.breakpoints :=
  congrArg Core.breakpoints h.core

lemma nextBreakpoint (h : Stirred s s') : s'.nextBreakpoint = s.nextBreakpoint :=
  congrArg Core.nextBreakpoint h.core

lemma memory (h : Stirred s s') : s'.memory = s.memory :=
  Scheduler.memory_of_contents h.scheduler.contents

end Stirred

/-! ### Actions come down to operations -/

lemma stirred_onMachine (s : Session) (f : Machine → Registers) :
    Stirred s (s.onMachine fun machine => { machine with registers := f machine }) :=
  ⟨.registers (f s.scheduler.machine), rfl⟩

lemma stirred_goTo (s : Session) (address : Option UInt32) : Stirred s (s.goTo address) := by
  cases address with
  | none => exact .of_core rfl
  | some address =>
    exact stirred_onMachine s fun machine => machine.registers.setIfInBounds 15 address

lemma stirred_writeRegister (s : Session) (index : Nat) (data : List UInt8) :
    Stirred s (s.writeRegister index data).2 := by
  simp only [writeRegister]
  split
  · exact stirred_onMachine s fun machine => machine.registers.setIfInBounds index _
  · split
    · exact .of_core rfl
    · exact .of_core rfl

/-- A session after an operation on the session that it was before, or on one that was
stirred first. -/
def Follows (s : Session) (op : Option Operation) (t : Session) : Prop :=
  ∃ s', Stirred s s' ∧ t.core = (op.elim s' s'.operate).core

lemma Follows.of_stirred {s t : Session} (h : Stirred s t) : Follows s none t := ⟨t, h, rfl⟩

lemma Follows.of_core {s t : Session} (h : t.core = s.core) : Follows s none t :=
  .of_stirred (.of_core h)

lemma Follows.operate {s s' t : Session} (op : Operation) (h : Stirred s s')
    (ht : t.core = (s'.operate op).core) : Follows s (some op) t := ⟨s', h, ht⟩

lemma Follows.of_core_eq {s t t' : Session} {op : Option Operation} (h : Follows s op t)
    (ht : t'.core = t.core) : Follows s op t' := by
  obtain ⟨s', hs, hcore⟩ := h
  exact ⟨s', hs, ht.trans hcore⟩

lemma core_watch (s : Session) (view : MemoryView) : (s.watch view).2.core = s.core := by
  simp only [watch]
  split
  · rfl
  · split
    · rfl
    · rfl

lemma core_unwatch (s : Session) (id : UInt32) : (s.unwatch id).2.core = s.core := by
  simp only [unwatch]
  split
  · rfl
  · rfl

lemma core_loadTape (s : Session) (index : UInt32) : (s.loadTape index).2.core = s.core := by
  simp only [loadTape]
  split
  · rfl
  · rfl

/-- The first client lets the machine run. -/
lemma follows_connect (s : Session) :
    Follows s (if !s.started && !s.isRunning then some .resume else none) s.connect.2 := by
  unfold connect
  have hstarted : s.pushUpdate.started = s.started := by unfold pushUpdate; split <;> rfl
  have hrunning : s.pushUpdate.isRunning = s.isRunning :=
    congrArg (fun c : Core => c.runState == .running) (core_pushUpdate s)
  rw [← hstarted, ← hrunning]
  dsimp only
  split
  · exact .operate .resume (.of_core (core_pushUpdate s)) rfl
  · exact .of_core (core_pushUpdate s)

lemma follows_handleMessage (s : Session) (message : Message) :
    Follows s (s.messageOperation? message) (s.handleMessage message).2 := by
  cases message with
  | connect h => exact follows_connect s
  | stop => exact .operate (.halt .requested) (.of_core rfl) rfl
  | resume => exact .operate .resume (.of_core rfl) rfl
  | step => exact .operate .step (.of_core rfl) rfl
  | next => exact .operate .next (.of_core rfl) rfl
  | restart => exact .operate .restart (.of_core rfl) rfl
  | setBreakpoint address => exact .operate (.setBreakpoint address) (.of_core rfl) rfl
  | unsetBreakpoint address => exact .operate (.unsetBreakpoint address) (.of_core rfl) rfl
  | memoryWatch view => exact .of_core (core_watch s view)
  | unwatch id => exact .of_core (core_unwatch s id)
  | disassembly view =>
    refine .of_core ?_
    simp only [handleMessage]
    split
    · rfl
    · rfl
  | tapeLoad index => exact .of_core (core_loadTape s index)
  | symbolData entries =>
    cases entries with
    | nil => exact .of_core rfl
    | cons => exact .of_core rfl
  | _ => exact .of_core rfl

lemma core_insertWatchpoint (s : Session) (point : Point) :
    (s.insertWatchpoint point).2.core = s.core := by
  simp only [insertWatchpoint]
  split
  · rfl
  · split
    · rfl
    · rfl

lemma follows_executeSerial (s : Session) (command : SerialCommand) :
    Follows s (commandOperation? command) (s.executeSerial command).2 := by
  cases command with
  | writeRegisters data => exact .of_stirred (stirred_onMachine s _)
  | writeRegister index data => exact .of_stirred (stirred_writeRegister s index data)
  | readMemory address length =>
    refine .of_core ?_
    simp only [executeSerial]
    split
    · rfl
    · rfl
  | writeMemory address data => exact .operate (.write address data) (.of_core rfl) rfl
  | resume address =>
    refine .operate .resume (stirred_goTo s address) ?_
    simp only [executeSerial, operate]
    split
    · next h => rw [h]
    · next h => rw [h]
  | step address =>
    refine .operate .step (stirred_goTo s address) ?_
    simp only [executeSerial, operate]
    split
    · next h => rw [h]
    · next h => rw [h]
    · next h => rw [h]
  | insertPoint point =>
    obtain ⟨kind, address, length⟩ := point
    cases kind with
    | software => exact .operate (.setBreakpoint address) (.of_core rfl) rfl
    | hardware => exact .operate (.setBreakpoint address) (.of_core rfl) rfl
    | read => exact .of_core rfl
    | write => exact .of_core (core_insertWatchpoint s _)
    | access => exact .of_core (core_insertWatchpoint s _)
  | removePoint point =>
    obtain ⟨kind, address, length⟩ := point
    cases kind with
    | software => exact .operate (.unsetBreakpoint address) (.of_core rfl) rfl
    | hardware => exact .operate (.unsetBreakpoint address) (.of_core rfl) rfl
    | _ => exact .of_core rfl
  | _ => exact .of_core rfl

lemma follows_handleSerial (s : Session) (command : SerialCommand) :
    Follows s (commandOperation? command) (s.handleSerial command) := by
  simp only [handleSerial]
  split
  · next address =>
    have h : Follows s (some .resume) ((s.setOwesStop true).executeSerial (.resume address)).2 := by
      obtain ⟨s', hs, hcore⟩ := follows_executeSerial (s.setOwesStop true) (.resume address)
      exact ⟨s', ⟨hs.scheduler, hs.core⟩, hcore⟩
    split
    · next hs => exact h.of_core_eq (by rw [hs]; rfl)
    · next hs => exact h.of_core_eq (by rw [hs])
    · next hs => exact h.of_core_eq (by rw [hs])
  · have h := follows_executeSerial s command
    split
    · next hs => exact h.of_core_eq (by rw [hs]; rfl)
    · next hs => exact h.of_core_eq (by rw [hs])
    · next hs => exact h.of_core_eq (by rw [hs])

lemma follows_handle (s : Session) (event : Event) :
    Follows s (s.eventOperation? event) (s.handle event).2 := by
  cases event with
  | message message => exact follows_handleMessage s message
  | peerLost => exact .of_core rfl
  | attached => exact ⟨{ s with gdb := { attached := true }, started := true }, .of_core rfl, rfl⟩
  | command command => exact follows_handleSerial s command
  | interrupt =>
    change Follows s (if s.isRunning then some (.halt .interrupted) else none) s.interrupt
    simp only [interrupt]
    split
    · exact .operate (.halt .interrupted) (.of_core rfl) rfl
    · exact .of_core rfl
  | detached =>
    change Follows s (if s.gdb.attached then some .resume else none) s.detach.2
    simp only [detach]
    split
    · exact ⟨{ s with gdb := {} }, .of_core rfl, rfl⟩
    · exact .of_core rfl

/-- What an action does to the core: the operation that it comes down to, on a session that
may have been stirred. -/
theorem follows_act (s : Session) (a : Action) : Follows s (s.operation? a) (s.act a) := by
  cases a with
  | event event => exact follows_handle s event
  | execute command => exact follows_executeSerial s command
  | advance => exact .operate .advance (.of_core rfl) rfl
  | interrupt irq => exact .of_stirred ⟨.interrupt irq, rfl⟩
  | expect arrivals => exact .of_stirred ⟨.arrivals arrivals, rfl⟩
  | shutdown => exact .of_stirred ⟨.shutdown, rfl⟩
  | invalidate => exact .of_core rfl
  | connected value => exact .of_core rfl

/-- What disturbances and operations keep of a core, actions keep. -/
lemma core_act {I : Core → Prop}
    (hstirred : ∀ {s s' : Session}, Stirred s s' → I s.core → I s'.core)
    (hoperate : ∀ {s : Session} (op : Operation), I s.core → I (s.operate op).core) {s : Session}
    (h : I s.core) (a : Action) : I (s.act a).core := by
  obtain ⟨s', hs, hcore⟩ := follows_act s a
  rw [hcore]
  cases s.operation? a with
  | none => exact hstirred hs h
  | some op => exact hoperate op (hstirred hs h)

/-- What actions keep of a core, runs keep. -/
lemma core_run {I : Core → Prop} (hact : ∀ {s : Session} (a : Action), I s.core → I (s.act a).core)
    {s : Session} (h : I s.core) (actions : List Action) : I (s.run actions).core := by
  induction actions generalizing s with
  | nil => exact h
  | cons a rest ih => exact ih (hact a h)

/-! ### Shutting down -/

lemma live_clearNextBreakpoint (s : Session) :
    s.clearNextBreakpoint.scheduler.live = s.scheduler.live := by
  simp only [clearNextBreakpoint]
  split
  · rfl
  · split
    · rfl
    · rfl

lemma live_cleared (s : Session) :
    s.settle.clearNextBreakpoint.scheduler.live = s.scheduler.live := by
  rw [live_clearNextBreakpoint]
  simp only [settle]
  split
  · rfl
  · rfl

lemma live_of_live_halt {s : Session} {cause : StopCause}
    (h : (s.halt cause).scheduler.live = true) : s.scheduler.live = true := by
  rw [scheduler_of_core (core_halt s cause)] at h
  exact (live_cleared s).symm.trans h

lemma live_of_live_resume {s : Session} (h : s.resume.2.scheduler.live = true) :
    s.scheduler.live = true := by
  obtain ⟨y, hran, hcore | ⟨-, hcore⟩⟩ := resume_cases s
  · rw [scheduler_of_core hcore] at h
    exact hran.live h
  · rw [scheduler_of_core hcore] at h
    exact hran.live h

lemma live_of_live_step {s : Session} (h : s.step.2.scheduler.live = true) :
    s.scheduler.live = true := by
  obtain ⟨y, hran, hcore⟩ := core_step s
  rw [scheduler_of_core hcore] at h
  exact (live_cleared s).symm.trans (hran.live h)

lemma live_of_live_next {s : Session} (h : s.next.2.scheduler.live = true) :
    s.scheduler.live = true := by
  refine (ran_settle s.breakpoints s).live ?_
  generalize hnext : s.next.2 = t at h
  cases hnext ▸ nextCase s with
  | unreadable => exact h
  | known => exact live_of_live_resume h
  | refused => exact h
  | called =>
    have hresume := live_of_live_resume h
    exact hresume
  | single => exact live_of_live_step h

lemma live_of_live_restart {s : Session} (h : s.restart.2.scheduler.live = true) :
    s.scheduler.live = true := by
  obtain ⟨t, hcore, hrestart⟩ := restart_cases s
  have ht : t.scheduler.live = s.scheduler.live := by
    rw [← live_cleared s, scheduler_of_core hcore]
    rfl
  rw [hrestart] at h
  split at h
  · exact ht.symm.trans (live_of_live_resume h)
  · exact ht.symm.trans h

lemma live_of_live_advance {s : Session} (h : s.advance.2.scheduler.live = true) :
    s.scheduler.live = true := by
  rcases advance_cases s with hstay | ⟨-, hcase⟩
  · rwa [hstay] at h
  · generalize s.advance.2 = t at h hcase
    cases hcase with
    | flying _ y hran ht =>
      rw [scheduler_of_core ht] at h
      exact hran.live h
    | landed _ y hran ht =>
      rw [scheduler_of_core ht] at h
      exact hran.live h
    | stopped u y hran ht cause =>
      have hu := live_of_live_halt h
      rw [scheduler_of_core ht] at hu
      exact hran.live hu

/-- After a shutdown no operation starts the machine again. -/
lemma live_of_live_operate {s : Session} {op : Operation}
    (h : (s.operate op).scheduler.live = true) : s.scheduler.live = true := by
  cases op with
  | halt cause => exact live_of_live_halt h
  | resume => exact live_of_live_resume h
  | step => exact live_of_live_step h
  | next => exact live_of_live_next h
  | restart => exact live_of_live_restart h
  | advance => exact live_of_live_advance h
  | setBreakpoint address =>
    simp only [operate, setBreakpoint] at h
    split at h
    · exact h
    · split at h
      · exact h
      · exact h
      · exact h
  | unsetBreakpoint address =>
    simp only [operate, unsetBreakpoint] at h
    split at h
    · exact h
    · split at h
      · exact h
      · exact h
  | write address data =>
    simp only [operate, writeMemory] at h
    split at h
    · exact h
    · exact h

lemma live_of_live_act {s : Session} {a : Action} (h : (s.act a).scheduler.live = true) :
    s.scheduler.live = true := by
  obtain ⟨s', hstirred, hcore⟩ := follows_act s a
  refine hstirred.scheduler.live ?_
  rw [scheduler_of_core hcore] at h
  cases hop : s.operation? a with
  | none =>
    rw [hop] at h
    exact h
  | some op =>
    rw [hop] at h
    exact live_of_live_operate h

lemma live_of_live_run {s : Session} {actions : List Action}
    (h : (s.run actions).scheduler.live = true) : s.scheduler.live = true := by
  induction actions generalizing s with
  | nil => exact h
  | cons a rest ih => exact live_of_live_act (ih h)

end Session
end RemoteDebugger
