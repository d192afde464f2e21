/-
# What a client is told of a stop

Whatever stops a session, a connected client is told of it once and in the same way: that the
machine has stopped, if it ran and the client did not ask for the stop itself; the symbols, if
they may have changed and can be read; the state of the processor; and what the watched ranges
hold, by number, without traps (`Session.sent_of_stops`).

A stop is a point in the course of an action (`Session.StopPoint`).  What happens up to there
changes no more of what reports depend on than it must, then come the reports, and a restart
may run on after them.
-/
import RemoteDebugger.Proofs.Session.Answer
import RemoteDebugger.Proofs.Session.Slice
import RemoteDebugger.Proofs.Session.Transparency

namespace RemoteDebugger
namespace Session

variable {s t u : Session} {a : Action}

/-! ### What reports depend on -/

/-- What has been sent, and what the reports of a session depend on besides the machine and the
breakpoints. -/
structure Reporting where
  /-- The messages that were sent. -/
  sent : List Message
  /-- The symbols that were read last. -/
  symbols : SymbolTable
  /-- Whether the symbols may have changed. -/
  invalidated : Bool
  /-- Whether a client takes reports. -/
  connected : Bool
  /-- The configuration. -/
  config : Config
  /-- The ranges that the client watches. -/
  watches : Watches

/-- What the reports of a session depend on. -/
def reporting (s : Session) : Reporting :=
  { sent := s.sent.toList, symbols := s.symbols, invalidated := s.invalidated,
    connected := s.connected, config := s.config, watches := s.watches }

/-- More has been sent. -/
def Reporting.tell (r : Reporting) (messages : List Message) : Reporting :=
  { r with sent := r.sent ++ messages }

@[simp] lemma Reporting.tell_nil (r : Reporting) : r.tell [] = r := by
  simp [tell]

@[simp] lemma reporting_send (s : Session) (message : Message) :
    (s.send message).reporting = s.reporting.tell [message] := by
  simp [reporting, send, Reporting.tell]

@[simp] lemma reporting_settle (s : Session) : s.settle.reporting = s.reporting := rfl

@[simp] lemma reporting_goTo (s : Session) (address : Option UInt32) :
    (s.goTo address).reporting = s.reporting := by
  cases address with
  | none => rfl
  | some address => rfl

@[simp] lemma reporting_clearNextBreakpoint (s : Session) :
    s.clearNextBreakpoint.reporting = s.reporting := by
  simp only [clearNextBreakpoint]
  split
  · rfl
  · split
    · rfl
    · rfl

@[simp] lemma reporting_recordStop (s : Session) (reason : StopReason) :
    (s.recordStop reason).reporting = s.reporting := by
  simp only [recordStop]
  split
  · rfl
  · rfl

@[simp] lemma reporting_launchSlice (s : Session) : s.launchSlice.reporting = s.reporting := by
  simp only [launchSlice]
  split
  · rfl
  · rfl

@[simp] lemma reporting_resume (s : Session) : s.resume.2.reporting = s.reporting := by
  simp only [resume]
  split
  · rfl
  · split
    · rfl
    · rfl
    · rfl

lemma reporting_afterCycle (s : Session) (y : Scheduler) :
    (s.afterCycle y).reporting = s.reporting :=
  reporting_clearNextBreakpoint s.settle

/-! ### What follows a stop -/

/-- What is sent of the symbols that are in memory, if they may have changed. -/
def symbolReport (memory : Memory) (config : Config) (invalidated : Bool) : List Message :=
  if invalidated then
    match SymbolTable.scan memory config.symbolsAddress config.limits with
    | .ok symbols => [.symbolData symbols.entries]
    | .error _ => []
  else []

/-- What is sent of a watched range of plain memory, if it can be read. -/
def rangeReport? (plain : Memory) (view : MemoryView) : Option Message :=
  match plain.read view.watchStart view.watchSize.toNat with
  | .ok data => some (.memoryData { id := view.id, start := view.watchStart, data })
  | .error _ => none

lemma watchReport?_eq (h : s.breakpoints.Aligned) :
    s.watchReport? = rangeReport? (s.breakpoints.plain s.memory) := by
  funext view
  have hread := readMemory_of_aligned h view.watchStart view.watchSize.toNat
  unfold watchReport? rangeReport?
  cases hplain : (s.breakpoints.plain s.memory).read view.watchStart view.watchSize.toNat with
  | ok data => simp only [hread.trans hplain]
  | error fault => simp only [hread.trans hplain]

lemma stopReport_reloadSymbols (s : Session) : s.reloadSymbols.stopReport = s.stopReport := by
  simp only [reloadSymbols]
  split
  · split
    · rfl
    · rfl
  · rfl

lemma reloadSymbols_of_ok (h : s.invalidated = true) {symbols : SymbolTable}
    (hscan : s.scanSymbols = .ok symbols) :
    s.reloadSymbols = { s with invalidated := false, symbols }.sendSymbols := by
  rw [reloadSymbols, if_pos h, hscan]

lemma reloadSymbols_of_error (h : s.invalidated = true) {fault : Fault}
    (hscan : s.scanSymbols = .error fault) : s.reloadSymbols = { s with invalidated := false } := by
  rw [reloadSymbols, if_pos h, hscan]

lemma reloadSymbols_of_valid (h : s.invalidated = false) : s.reloadSymbols = s := by
  rw [reloadSymbols, if_neg (by simp [h])]

lemma symbolReport_of_ok {memory : Memory} {config : Config} {symbols : SymbolTable}
    (hscan : SymbolTable.scan memory config.symbolsAddress config.limits = .ok symbols) :
    symbolReport memory config true = [.symbolData symbols.entries] := by
  rw [symbolReport, if_pos rfl, hscan]

lemma symbolReport_of_error {memory : Memory} {config : Config} {fault : Fault}
    (hscan : SymbolTable.scan memory config.symbolsAddress config.limits = .error fault) :
    symbolReport memory config true = [] := by
  rw [symbolReport, if_pos rfl, hscan]

lemma sent_reloadSymbols (s : Session) :
    s.reloadSymbols.sent.toList =
      s.sent.toList ++ symbolReport s.memory s.config s.invalidated := by
  cases hinvalidated : s.invalidated with
  | false =>
    rw [reloadSymbols_of_valid hinvalidated]
    exact (List.append_nil _).symm
  | true =>
    cases hscan : s.scanSymbols with
    | ok symbols =>
      rw [reloadSymbols_of_ok hinvalidated hscan, symbolReport_of_ok hscan]
      exact Array.toList_push
    | error fault =>
      rw [reloadSymbols_of_error hinvalidated hscan, symbolReport_of_error hscan]
      exact (List.append_nil _).symm

lemma connected_reloadSymbols (s : Session) : s.reloadSymbols.connected = s.connected := by
  simp only [reloadSymbols]
  split
  · split
    · rfl
    · rfl
  · rfl

lemma sent_afterStop (s : Session) :
    s.afterStop.sent.toList =
      s.sent.toList ++ (symbolReport s.memory s.config s.invalidated ++
        if s.connected then s.stopReport else []) := by
  rw [afterStop, pushUpdate, connected_reloadSymbols, stopReport_reloadSymbols]
  split
  · rw [Array.toList_appendList, sent_reloadSymbols, List.append_assoc]
  · rw [sent_reloadSymbols, List.append_nil]

/-! ### The stop of an action -/

/-- An operation that stops a session and succeeds. -/
inductive Stops (s : Session) : Action → Prop where
  /-- The client asks for a stop. -/
  | requested : Stops s (.event (.message .stop))
  /-- The client asks for a step. -/
  | step (status : Status) (h : s.step.1 = .ok status) : Stops s (.event (.message .step))
  /-- The client asks for a *next*, and there is no call. -/
  | next (word : UInt32) (hword : s.currentWord = .ok word)
    (hcall : Instruction.isCall word = false) (h : s.next.1 = .ok ()) :
    Stops s (.event (.message .next))
  /-- The client asks for a restart. -/
  | restart : Stops s (.event (.message .restart))
  /-- GDB attaches. -/
  | attached : Stops s (.event .attached)
  /-- GDB asks for a stop of the machine that runs. -/
  | interrupted (h : s.runState = .running) : Stops s (.event .interrupt)
  /-- GDB asks for a step. -/
  | command (address : Option UInt32) (status : Status)
    (h : (s.goTo address).step.1 = .ok status) : Stops s (.event (.command (.step address)))
  /-- A step of GDB is carried out without an answer. -/
  | execute (address : Option UInt32) (status : Status)
    (h : (s.goTo address).step.1 = .ok status) : Stops s (.execute (.step address))
  /-- A slice ends with a reason to stop. -/
  | slice (h : s.runState = .running) (hstopped : (s.act .advance).runState = .stopped) :
    Stops s .advance

/-- The client is told that the machine has stopped if it ran and GDB or a slice has stopped
it. -/
def stopNotice (s : Session) : Action → List Message
  | .event .attached | .event .interrupt | .advance =>
    if s.runState = .running then [.stop] else []
  | _ => []

/-- Whether the symbols may have changed at the stop of an action: a restart changes memory. -/
def stopInvalidated (s : Session) : Action → Bool
  | .event (.message .restart) => true
  | _ => s.invalidated

/-- The processor at the stop of an action: a restart stops the machine when it has been reset,
and may run on. -/
def stopSnapshot (s : Session) (a : Action) : Snapshot :=
  match a with
  | .event (.message .restart) => s.scheduler.machine.reset.snapshot
  | _ => (s.act a).scheduler.machine.snapshot

/-- The session `u` at the stop of an action. -/
structure StopPoint (s : Session) (a : Action) (u : Session) : Prop where
  /-- Up to the stop there has been a notice at most. -/
  reached : u.reporting =
    { s.reporting.tell (s.stopNotice a) with invalidated := s.stopInvalidated a }
  /-- After the stop there are the reports. -/
  reported : (s.act a).reporting = u.afterStop.reporting
  /-- The breakpoints have not changed since. -/
  breakpoints : (s.act a).breakpoints = u.breakpoints
  /-- Memory has not changed since. -/
  memory : (s.act a).memory = u.memory
  /-- The processor. -/
  snapshot : u.scheduler.machine.snapshot = s.stopSnapshot a

/-- If nothing but reports has come after the stop, the machine stands as it stood there. -/
lemma StopPoint.of_core (ha : a ≠ .event (.message .restart))
    (hreached : u.reporting = s.reporting.tell (s.stopNotice a))
    (hreported : (s.act a).reporting = u.afterStop.reporting)
    (hcore : (s.act a).core = u.core) : s.StopPoint a u := by
  have hscheduler : (s.act a).scheduler = u.scheduler := scheduler_of_core hcore
  have hinvalidated : s.stopInvalidated a = s.invalidated := by
    unfold stopInvalidated
    split
    · exact absurd rfl ha
    · rfl
  have hsnapshot : s.stopSnapshot a = (s.act a).scheduler.machine.snapshot := by
    unfold stopSnapshot
    split
    · exact absurd rfl ha
    · rfl
  exact
    { reached := by
        rw [hreached, hinvalidated]
        rfl
      reported := hreported
      breakpoints := breakpoints_of_core hcore
      memory := congrArg Scheduler.memory hscheduler
      snapshot := by
        rw [hsnapshot, hscheduler] }

lemma exists_halt (s : Session) (cause : StopCause) : ∃ u : Session,
    s.halt cause = u.afterStop ∧
      u.reporting =
        s.reporting.tell (if s.isRunning && cause.notifiesClient then [.stop] else []) := by
  refine ⟨_, rfl, ?_⟩
  split
  · simp
  · simp

lemma stopPoint_halt (t : Session) (cause : StopCause) (ha : a ≠ .event (.message .restart))
    (hact : s.act a = t.halt cause) (ht : t.reporting = s.reporting)
    (hnotice : (if t.isRunning && cause.notifiesClient then [Message.stop] else []) =
      s.stopNotice a) : ∃ u, s.StopPoint a u := by
  obtain ⟨u, hhalt, hu⟩ := exists_halt t cause
  refine ⟨u, .of_core ha ?_ ?_ ?_⟩
  · rw [hu, ht, hnotice]
  · rw [hact, hhalt]
  · rw [hact, hhalt, core_afterStop]

lemma exists_step {status : Status} (h : s.step.1 = .ok status) : ∃ u : Session,
    s.step.2 = u.afterStop ∧ u.reporting = s.reporting := by
  have hcase := stepCase s
  generalize s.step = result at h hcase
  cases hcase with
  | dead y hdead fault => cases h
  | done y hlive status =>
    refine ⟨_, rfl, ?_⟩
    rw [reporting_recordStop, reporting_afterCycle]

lemma stopPoint_step (t : Session) {status : Status} (ha : a ≠ .event (.message .restart))
    (h : t.step.1 = .ok status) (hreporting : (s.act a).reporting = t.step.2.reporting)
    (hcore : (s.act a).core = t.step.2.core) (ht : t.reporting = s.reporting)
    (hnotice : s.stopNotice a = []) : ∃ u, s.StopPoint a u := by
  obtain ⟨u, hstep, hu⟩ := exists_step h
  refine ⟨u, .of_core ha ?_ ?_ ?_⟩
  · rw [hu, ht, hnotice, Reporting.tell_nil]
  · rw [hreporting, hstep]
  · rw [hcore, hstep, core_afterStop]

lemma currentWord_settle (s : Session) : s.settle.currentWord = s.currentWord := by
  simp only [settle]
  split
  · rfl
  · rfl

/-- Where there is no call, a *next* is a step. -/
lemma next_of_not_call {word : UInt32} (hword : s.currentWord = .ok word)
    (hcall : Instruction.isCall word = false) :
    s.next = (s.settle.step.1.map fun _ => (), s.settle.step.2) := by
  simp only [next]
  rw [currentWord_settle, hword]
  dsimp only
  rw [hcall]
  rfl

/-- Letting the machine run changes no memory. -/
lemma memory_resume (h : s.breakpoints.Installed s.memory) : s.resume.2.memory = s.memory := by
  obtain ⟨y, hran, hcore | ⟨-, hcore⟩⟩ := resume_cases s
  · exact (congrArg Scheduler.memory (scheduler_of_core hcore)).trans
      (Scheduler.memory_of_contents (hran.contents h))
  · exact (congrArg Scheduler.memory (scheduler_of_core hcore)).trans
      (Scheduler.memory_of_contents (hran.contents h))

lemma stopPoint_restart {image plain : Memory} (h : s.core.Shows image plain) :
    s.StopPoint (.event (.message .restart)) s.afterReset := by
  have hact : s.act (.event (.message .restart)) =
      if s.isRunning then s.afterReset.afterStop.resume.2 else s.afterReset.afterStop :=
    restart_eq s
  have hbreakpoints : s.afterReset.afterStop.breakpoints = s.afterReset.breakpoints :=
    breakpoints_of_core (core_afterStop s.afterReset)
  have hmemory : s.afterReset.afterStop.memory = s.afterReset.memory :=
    congrArg Scheduler.memory (scheduler_of_core (core_afterStop s.afterReset))
  have hinstalled :
      s.afterReset.afterStop.breakpoints.Installed s.afterReset.afterStop.memory := by
    rw [hbreakpoints, hmemory]
    exact (shows_afterReset h).installed
  refine ⟨?_, ?_, ?_, ?_, rfl⟩
  · have hreporting : s.settle.clearNextBreakpoint.reporting = s.reporting :=
      reporting_clearNextBreakpoint s.settle
    rw [show s.stopNotice (.event (.message .restart)) = [] from rfl, Reporting.tell_nil,
      ← hreporting]
    rfl
  · rw [hact]
    split
    · exact reporting_resume s.afterReset.afterStop
    · rfl
  · rw [hact]
    split
    · exact (breakpoints_resume s.afterReset.afterStop).trans hbreakpoints
    · exact hbreakpoints
  · rw [hact]
    split
    · exact (memory_resume hinstalled).trans hmemory
    · exact hmemory

lemma notice_of_isRunning (s : Session) :
    (if s.isRunning && true then [Message.stop] else []) =
      if s.runState = .running then [.stop] else [] := by
  simp only [Bool.and_true, isRunning_iff]

lemma stopPoint_next {word : UInt32} (hword : s.currentWord = .ok word)
    (hcall : Instruction.isCall word = false) (h : s.next.1 = .ok ()) :
    ∃ u, s.StopPoint (.event (.message .next)) u := by
  have hact : s.act (.event (.message .next)) = s.settle.step.2 :=
    congrArg Prod.snd (next_of_not_call hword hcall)
  rw [next_of_not_call hword hcall] at h
  cases hstep : s.settle.step.1 with
  | error fault =>
    rw [hstep] at h
    cases h
  | ok status =>
    exact stopPoint_step s.settle (by simp) hstep (congrArg reporting hact) (congrArg core hact)
      rfl rfl

lemma stopPoint_command {address : Option UInt32} {status : Status}
    (h : (s.goTo address).step.1 = .ok status) :
    ∃ u, s.StopPoint (.event (.command (.step address))) u := by
  have hne : ∀ address', SerialCommand.step address ≠ .resume address' :=
    fun _ heq => by cases heq
  obtain ⟨reply, hreply⟩ := exists_reply (s := s) (by simp) hne
  have hact : s.act (.event (.command (.step address))) = (s.goTo address).step.2.reply reply := by
    rw [← executeSerial_step]
    exact handleSerial_of_reply hne hreply
  have hreporting := congrArg reporting hact
  have hcore := congrArg core hact
  exact stopPoint_step (s.goTo address) (by simp) h hreporting hcore (reporting_goTo s address) rfl

lemma stopPoint_slice (hrunning : s.runState = .running)
    (hstopped : (s.act .advance).runState = .stopped) : ∃ u, s.StopPoint .advance u := by
  obtain ⟨t, cause, hact, hnotifies, ht⟩ := exists_halt_of_stopped hrunning hstopped
  have hstate : t.isRunning = s.isRunning := by
    have hlaunched : t.runState = s.launchSlice.runState := by rcases ht with rfl | rfl <;> rfl
    rw [isRunning, isRunning, hlaunched, runState_launchSlice]
  have hreporting : t.reporting = s.reporting := by
    rw [← reporting_launchSlice s]
    rcases ht with rfl | rfl <;> rfl
  refine stopPoint_halt t cause (by simp) hact hreporting ?_
  rw [hnotifies, hstate]
  exact notice_of_isRunning s

/-- Every operation that stops a session comes to a stop. -/
lemma exists_stopPoint {image plain : Memory} (h : s.core.Shows image plain) (ha : s.Stops a) :
    ∃ u, s.StopPoint a u := by
  cases ha with
  | requested =>
    refine stopPoint_halt s .requested (by simp) rfl rfl ?_
    exact if_neg (by simp [StopCause.notifiesClient])
  | step status hstep => exact stopPoint_step s (by simp) hstep rfl rfl rfl rfl
  | next word hword hcall hnext => exact stopPoint_next hword hcall hnext
  | restart => exact ⟨s.afterReset, stopPoint_restart h⟩
  | attached =>
    exact stopPoint_halt { s with gdb := { attached := true }, started := true } .attached (by simp)
      rfl rfl (notice_of_isRunning s)
  | interrupted hrunning =>
    have hact : s.act (.event .interrupt) = s.halt .interrupted :=
      if_pos (isRunning_iff.2 hrunning)
    exact stopPoint_halt s .interrupted (by simp) hact rfl (notice_of_isRunning s)
  | command address status hstep => exact stopPoint_command hstep
  | execute address status hstep =>
    have hact : s.act (.execute (.step address)) = (s.goTo address).step.2 :=
      executeSerial_step s address
    exact stopPoint_step (s.goTo address) (by simp) hstep (congrArg reporting hact)
      (congrArg core hact) (reporting_goTo s address) rfl
  | slice hrunning hstopped => exact stopPoint_slice hrunning hstopped

/-! ### The watched ranges -/

lemma watches_of_reporting (h : t.reporting = s.reporting) : t.watches = s.watches :=
  congrArg Reporting.watches h

lemma watches_pushUpdate (s : Session) : s.pushUpdate.watches = s.watches := by
  simp only [pushUpdate]
  split
  · rfl
  · rfl

lemma watches_afterStop (s : Session) : s.afterStop.watches = s.watches := by
  rw [afterStop, watches_pushUpdate]
  simp only [reloadSymbols]
  split
  · split
    · rfl
    · rfl
  · rfl

lemma watches_halt (s : Session) (cause : StopCause) : (s.halt cause).watches = s.watches := by
  obtain ⟨u, hhalt, hu⟩ := exists_halt s cause
  rw [hhalt, watches_afterStop]
  exact congrArg Reporting.watches hu

lemma watches_resume (s : Session) : s.resume.2.watches = s.watches :=
  watches_of_reporting (reporting_resume s)

lemma watches_step (s : Session) : s.step.2.watches = s.watches := by
  have hcase := stepCase s
  generalize s.step = result at hcase
  cases hcase with
  | dead y h fault => exact watches_of_reporting (reporting_afterCycle s y)
  | done y h status =>
    dsimp only
    rw [watches_afterStop, watches_of_reporting (reporting_recordStop _ _),
      watches_of_reporting (reporting_afterCycle s y)]

lemma watches_next (s : Session) : s.next.2.watches = s.watches := by
  generalize hnext : s.next.2 = t
  cases hnext ▸ nextCase s with
  | unreadable => rfl
  | known => exact watches_resume s.settle
  | refused => rfl
  | called => exact watches_resume _
  | single => exact watches_step s.settle

lemma watches_restart (s : Session) : s.restart.2.watches = s.watches := by
  have hcleared := watches_of_reporting (reporting_clearNextBreakpoint s.settle)
  have hreset : s.afterReset.afterStop.watches = s.watches :=
    (watches_afterStop s.afterReset).trans hcleared
  rw [restart_eq]
  split
  · exact (watches_resume s.afterReset.afterStop).trans hreset
  · exact hreset

lemma watches_advance (s : Session) : s.advance.2.watches = s.watches := by
  have hlaunched := watches_of_reporting (reporting_launchSlice s)
  have hcase := sliceCase s
  generalize s.advance.2 = t at hcase
  cases hcase with
  | idle => rfl
  | flying => exact hlaunched
  | ended h status hpoll _ hend =>
    cases hend with
    | trapped => exact (watches_halt _ _).trans hlaunched
    | changed => exact (watches_halt _ _).trans hlaunched
    | unchanged => exact hlaunched

/-- No operation changes which ranges the client watches. -/
lemma watches_operate (s : Session) (op : Operation) : (s.operate op).watches = s.watches := by
  cases op with
  | halt cause => exact watches_halt s cause
  | resume => exact watches_resume s
  | step => exact watches_step s
  | next => exact watches_next s
  | restart => exact watches_restart s
  | advance => exact watches_advance s
  | setBreakpoint address =>
    simp only [operate, setBreakpoint]
    split
    · rfl
    · split
      · rfl
      · rfl
      · rfl
  | unsetBreakpoint address =>
    simp only [operate, unsetBreakpoint]
    split
    · rfl
    · dsimp only
      split
      · rfl
      · rfl
  | write address data =>
    simp only [operate, writeMemory]
    split
    · rfl
    · rfl

lemma watches_executeSerial (s : Session) (command : SerialCommand) :
    (s.executeSerial command).2.watches = s.watches := by
  cases command with
  | writeRegister index data =>
    simp only [executeSerial, writeRegister]
    split
    · rfl
    · split
      · rfl
      · rfl
  | readMemory address length =>
    simp only [executeSerial]
    split
    · rfl
    · rfl
  | writeMemory address data => exact watches_operate s (.write address data)
  | resume address =>
    rw [executeSerial_resume, watches_resume, watches_of_reporting (reporting_goTo s address)]
  | step address =>
    rw [executeSerial_step, watches_step, watches_of_reporting (reporting_goTo s address)]
  | insertPoint point =>
    obtain ⟨kind, address, length⟩ := point
    cases kind with
    | software => exact watches_operate s (.setBreakpoint address)
    | hardware => exact watches_operate s (.setBreakpoint address)
    | read => rfl
    | _ =>
      simp only [executeSerial, insertPoint, insertWatchpoint]
      split
      · rfl
      · split
        · rfl
        · rfl
  | removePoint point =>
    obtain ⟨kind, address, length⟩ := point
    cases kind with
    | software => exact watches_operate s (.unsetBreakpoint address)
    | hardware => exact watches_operate s (.unsetBreakpoint address)
    | _ => rfl
  | _ => rfl

lemma watches_handleSerial (s : Session) (command : SerialCommand) :
    (s.handleSerial command).watches = s.watches := by
  refine handleSerial_of_execute (P := fun t => t.watches = s.watches) (fun _ _ h => h)
    (fun _ _ h => h) (fun _ _ => ?_) fun _ => ?_
  · exact watches_executeSerial (s.setOwesStop true) command
  · exact watches_executeSerial s command

/-- Every watched range has its number as its key. -/
def Numbered (s : Session) : Prop := ∀ e ∈ s.watches.entries, e.2.id = e.1

lemma Numbered.of_watches (h : s.Numbered) (ht : t.watches = s.watches) : t.Numbered := by
  rw [Numbered, ht]
  exact h

lemma numbered_watch (h : s.Numbered) (view : MemoryView) : (s.watch view).2.Numbered := by
  have hregister : ∀ e ∈ (s.watches.register view).entries, e.2.id = e.1 := by
    intro e he
    rcases Directory.mem_insertEntry he with rfl | he
    · rfl
    · exact h e he
  simp only [watch]
  split
  · exact hregister
  · split
    · exact h
    · exact hregister

lemma numbered_unwatch (h : s.Numbered) (id : UInt32) : (s.unwatch id).2.Numbered := by
  simp only [unwatch, Watches.remove]
  split
  · exact h
  · next watches hremove =>
    split at hremove
    · obtain ⟨-, rfl⟩ := Prod.mk.inj (Except.ok.inj hremove)
      exact fun e he => h e (List.mem_filter.1 he).1
    · cases hremove

lemma watches_connect (s : Session) : s.connect.2.watches = s.watches := by
  simp only [connect]
  split
  · exact (watches_resume s.pushUpdate).trans (watches_pushUpdate s)
  · exact watches_pushUpdate s

lemma watches_loadTape (s : Session) (index : UInt32) :
    (s.loadTape index).2.watches = s.watches := by
  simp only [loadTape]
  split
  · rfl
  · rfl

lemma watches_interrupt (s : Session) : s.interrupt.watches = s.watches := by
  simp only [interrupt]
  split
  · exact watches_halt s .interrupted
  · rfl

lemma watches_detach (s : Session) : s.detach.2.watches = s.watches := by
  simp only [detach]
  split
  · exact watches_resume { s with gdb := {} }
  · rfl

/-- Only a message that watches a range or does not any more changes the watched ranges. -/
lemma numbered_handleMessage (h : s.Numbered) (message : Message) :
    (s.handleMessage message).2.Numbered := by
  cases message with
  | memoryWatch view => exact numbered_watch h view
  | unwatch id => exact numbered_unwatch h id
  | stop => exact h.of_watches (watches_halt s .requested)
  | resume => exact h.of_watches (watches_resume s)
  | step => exact h.of_watches (watches_step s)
  | next => exact h.of_watches (watches_next s)
  | restart => exact h.of_watches (watches_restart s)
  | setBreakpoint address => exact h.of_watches (watches_operate s (.setBreakpoint address))
  | unsetBreakpoint address => exact h.of_watches (watches_operate s (.unsetBreakpoint address))
  | connect handshake => exact h.of_watches (watches_connect s)
  | disassembly view =>
    refine h.of_watches ?_
    simp only [handleMessage]
    split
    · rfl
    · rfl
  | tapeLoad index => exact h.of_watches (watches_loadTape s index)
  | symbolData symbols =>
    cases symbols with
    | nil => exact h
    | cons => exact h
  | _ => exact h

lemma numbered_act (h : s.Numbered) (a : Action) : (s.act a).Numbered := by
  cases a with
  | event event =>
    cases event with
    | message message => exact numbered_handleMessage h message
    | peerLost => exact h
    | attached => exact h.of_watches (watches_halt _ .attached)
    | command command => exact h.of_watches (watches_handleSerial s command)
    | interrupt => exact h.of_watches (watches_interrupt s)
    | detached => exact h.of_watches (watches_detach s)
  | execute command => exact h.of_watches (watches_executeSerial s command)
  | advance => exact h.of_watches (watches_advance s)
  | _ => exact h

lemma Numbered.ascending (h : s.Numbered) :
    (s.watches.values.map (·.id)).Pairwise (· < ·) := by
  have hids : s.watches.values.map (·.id) = s.watches.entries.map (·.1) := by
    rw [Directory.values, List.map_map]
    exact List.map_congr_left h
  rw [hids]
  exact List.pairwise_map.2 s.watches.ascending

lemma numbered_create (scheduler : Scheduler) (config : Config) (disassembler : Disassembler)
    (tapes : Tapes) (connected : Bool) :
    (create scheduler config disassembler tapes connected).Numbered := by
  simp only [create]
  split
  · exact fun _ he => absurd he List.not_mem_nil
  · exact fun _ he => absurd he List.not_mem_nil

lemma numbered_run (h : s.Numbered) (actions : List Action) : (s.run actions).Numbered := by
  induction actions generalizing s with
  | nil => exact h
  | cons a rest ih => exact ih (numbered_act h a)

/-! ### What is sent -/

/-- What has been sent after an action that stops a session: a notice if the machine has to be
said to have stopped, the symbols if they may have changed and can be read, the processor, and
the watched ranges that can be read. -/
def stopMessages (s : Session) (a : Action) : List Message :=
  let t := s.act a
  s.stopNotice a ++ symbolReport t.memory s.config (s.stopInvalidated a) ++
    .state (s.stopSnapshot a) ::
      s.watches.values.filterMap (rangeReport? (t.breakpoints.plain t.memory))

lemma StopPoint.sent_act (h : s.StopPoint a u) (hconnected : s.connected = true)
    (haligned : (s.act a).breakpoints.Aligned) :
    (s.act a).sent.toList = s.sent.toList ++ s.stopMessages a := by
  have hsent : u.sent.toList = s.sent.toList ++ s.stopNotice a :=
    congrArg Reporting.sent h.reached
  have hinvalidated : u.invalidated = s.stopInvalidated a :=
    congrArg Reporting.invalidated h.reached
  have hwatches : u.watches = s.watches := congrArg Reporting.watches h.reached
  have hconfig : u.config = s.config := congrArg Reporting.config h.reached
  have hu : u.connected = true := (congrArg Reporting.connected h.reached).trans hconnected
  have hreported : (s.act a).sent.toList = u.afterStop.sent.toList :=
    congrArg Reporting.sent h.reported
  rw [h.breakpoints] at haligned
  simp only [stopMessages]
  rw [hreported, sent_afterStop, if_pos hu, hsent, stopReport, watchReport?_eq haligned,
    h.snapshot, hinvalidated, hwatches, hconfig, h.breakpoints, h.memory, List.append_assoc,
    List.append_assoc]

/-- Every operation that stops a session sends a connected client the messages that it is to
have of a stop, in their order and once; a slice after which the machine runs on sends nothing.
The watched ranges ascend by number. -/
theorem sent_of_stops (scheduler : Scheduler) (config : Config) (disassembler : Disassembler)
    (tapes : Tapes) (connected : Bool)
    (hsize : scheduler.machine.image.size = scheduler.memory.size) (actions : List Action) :
    let s := (create scheduler config disassembler tapes connected).run actions
    s.connected = true →
      (∀ a, s.Stops a → (s.act a).sent.toList = s.sent.toList ++ s.stopMessages a) ∧
      ((s.act .advance).runState = .running → (s.act .advance).sent = s.sent) ∧
      (s.watches.values.map (·.id)).Pairwise (· < ·) := by
  intro s hconnected
  have hshows := shows_run scheduler config disassembler tapes connected hsize actions
  refine ⟨fun a ha => ?_, fun hrunning => ?_, ?_⟩
  · obtain ⟨u, hu⟩ := exists_stopPoint hshows ha
    exact hu.sent_act hconnected (shows_act s _ a hshows).installed.aligned
  · have hcase := sliceCase s
    change s.advance.2.runState = .running at hrunning
    change s.advance.2.sent = s.sent
    generalize s.advance.2 = t at hcase hrunning
    have hlaunched : s.launchSlice.sent = s.sent :=
      Array.toList_inj.1 (congrArg Reporting.sent (reporting_launchSlice s))
    cases hcase with
    | idle => rfl
    | flying => exact hlaunched
    | ended h status hpoll _ hend =>
      cases hend with
      | trapped => exact absurd ((runState_halt _ _).symm.trans hrunning) (by decide)
      | changed => exact absurd ((runState_halt _ _).symm.trans hrunning) (by decide)
      | unchanged => exact hlaunched
  · have hcreate := numbered_create scheduler config disassembler tapes connected
    exact (numbered_run hcreate actions).ascending

/-- GDB stops a machine that runs after the tape was taken out; of the three watched ranges one
has a breakpoint in it and one lies beyond memory. -/
theorem sent_of_interrupt :
    let scheduler : Scheduler :=
      { machine := Machine.create 64 (List.replicate 32 1 ++ [0, 0, 0, 16, 0x6d, 0]) }
    let s := (create scheduler { symbolsAddress := 32 } .standard {} true).run
      [.event (.message (.memoryWatch ⟨2, 0, 0, 6, 4⟩)),
        .event (.message (.memoryWatch ⟨3, 0, 0, 62, 4⟩)),
        .event (.message (.memoryWatch ⟨1, 0, 0, 0, 1⟩)), .event (.message (.setBreakpoint 8)),
        .event (.message .tapeUnload), .event (.message .resume)]
    scheduler.machine.image.size = scheduler.memory.size ∧ s.connected = true ∧
      s.Stops (.event .interrupt) ∧
      (s.act (.event .interrupt)).sent.toList =
        [.stop, .symbolData [(16, "m")], .state scheduler.machine.snapshot,
          .memoryData ⟨1, 0, [1]⟩, .memoryData ⟨2, 6, [1, 1, 1, 1]⟩] := by
  intro scheduler s
  have hsize : scheduler.machine.image.size = scheduler.memory.size := rfl
  have hconnected : s.connected = true := by decide +kernel
  have hstops : s.Stops (.event .interrupt) := .interrupted (by decide +kernel)
  obtain ⟨hsent, -, -⟩ := sent_of_stops scheduler { symbolsAddress := 32 } .standard {} true hsize
    [.event (.message (.memoryWatch ⟨2, 0, 0, 6, 4⟩)),
      .event (.message (.memoryWatch ⟨3, 0, 0, 62, 4⟩)),
      .event (.message (.memoryWatch ⟨1, 0, 0, 0, 1⟩)), .event (.message (.setBreakpoint 8)),
      .event (.message .tapeUnload), .event (.message .resume)] hconnected
  refine ⟨hsize, hconnected, hstops, (hsent _ hstops).trans ?_⟩
  decide +kernel

end Session
end RemoteDebugger
