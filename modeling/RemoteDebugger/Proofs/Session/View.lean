/-
# What stays in view

What GDB watches is compared with memory as the session shows it, without the traps.  Most of
what a session does leaves both alone: the watchpoints with what was last seen in their ranges,
and plain memory (`Session.Keeps`).  This asks no more than that the breakpoints stand at
addresses of words; so it holds also of memory that somebody else has written, traps and all.
-/
import RemoteDebugger.Proofs.Session.Answer
import RemoteDebugger.Proofs.Session.Slice
import RemoteDebugger.Proofs.Session.Transparency

namespace RemoteDebugger

namespace Breakpoints

variable {t : Breakpoints} {x y : Scheduler}

lemma aligned_empty : Aligned {} := fun _ h => absurd h List.not_mem_nil

lemma aligned_of_add (ht : t.Aligned) {t' : Breakpoints} {m m' : Memory} {key : UInt32}
    (h : t.add key m = .ok (some (t', m'))) : t'.Aligned := by
  obtain ⟨hkey, -, word, -, rfl, -⟩ := add_eq_some h
  exact ht.insert hkey word

lemma aligned_of_remove (ht : t.Aligned) {t' : Breakpoints} {m m' : Memory} {key : UInt32}
    (h : t.remove key m = .ok (t', m')) : t'.Aligned := by
  obtain ⟨-, -, rfl, -⟩ := remove_eq_ok h
  exact ht.erase key

lemma aligned_of_write (ht : t.Aligned) {t' : Breakpoints} {m m' : Memory} {address : UInt32}
    {data : List UInt8} (h : t.write address data m = .ok (t', m')) : t'.Aligned := by
  simp only [write] at h
  split at h
  · cases h
  · obtain ⟨rfl, -⟩ := Prod.mk.inj (Except.ok.inj h)
    exact ht.map _

/-- What stands at a breakpoint does not matter to plain memory. -/
lemma plain_setWord (ht : t.Aligned) (m : Memory) {key word : UInt32}
    (hkey : key ∈ t.saved.keys) : t.plain (m.setWord key word) = t.plain m := by
  have hsize : (m.setWord key word).size = m.size := Memory.size_setWord ..
  refine plain_eq_of_byte? ht (by rw [size_plain, hsize]) fun i hi => ?_
  rw [byte?_plain ht m (by omega)]
  cases hover : t.wordOver? i with
  | some under => rw [Option.map_some, Option.some_or, Option.some_or]
  | none =>
    have hbase : Word.base i ≠ key.toNat := (ne_base_of_wordOver? hover hkey).symm
    rw [Memory.byte?_setWord_of_base_ne (ht key hkey) hbase]

/-- Executing the word under a trap keeps plain memory. -/
lemma plain_stepOver (ht : t.Aligned) {outcome : Except Fault Status}
    (h : t.stepOver x = some (outcome, y)) : t.plain y.memory = t.plain x.memory := by
  simp only [stepOver] at h
  split at h
  · cases h
  · next word hword =>
    have hkey : x.pc ∈ t.saved.keys := mem_keys_iff.2 ⟨word, hword⟩
    obtain ⟨-, rfl⟩ := Prod.mk.inj (Option.some.inj h)
    have hmemory := Scheduler.memory_of_contents
      (Scheduler.contents_stepAndWait (x.setMemory (x.memory.setWord x.pc word)) 1)
    change t.plain (Memory.setWord _ x.pc trapWord) = _
    rw [plain_setWord ht _ hkey, hmemory]
    exact plain_setWord ht x.memory hkey

lemma plain_cycle (ht : t.Aligned) (x : Scheduler) :
    t.plain (t.cycle x).2.memory = t.plain x.memory := by
  rw [cycle]
  cases hover : t.stepOver x with
  | none =>
    exact congrArg t.plain (Scheduler.memory_of_contents (Scheduler.contents_stepAndWait x 1))
  | some result => exact plain_stepOver ht hover

end Breakpoints

namespace Session

variable {s t u : Session}

/-- What the session `s` shows of memory and what GDB watches in it is the same in `t`. -/
structure Keeps (s t : Session) : Prop where
  /-- Breakpoints stand at addresses of words. -/
  aligned : s.breakpoints.Aligned → t.breakpoints.Aligned
  /-- Plain memory is the same. -/
  plain : s.breakpoints.Aligned → t.breakpoints.plain t.memory = s.breakpoints.plain s.memory
  /-- The watchpoints are the same. -/
  watchpoints : t.gdb.watchpoints = s.gdb.watchpoints

namespace Keeps

lemma refl (s : Session) : Keeps s s := ⟨id, fun _ => rfl, rfl⟩

lemma trans (h : Keeps s t) (h' : Keeps t u) : Keeps s u :=
  ⟨fun ht => h'.aligned (h.aligned ht), fun ht => (h'.plain (h.aligned ht)).trans (h.plain ht),
    h'.watchpoints.trans h.watchpoints⟩

lemma of_eq (hbreakpoints : t.breakpoints = s.breakpoints) (hmemory : t.memory = s.memory)
    (hwatchpoints : t.gdb.watchpoints = s.gdb.watchpoints) : Keeps s t :=
  ⟨fun ht => by rwa [hbreakpoints], fun _ => by rw [hbreakpoints, hmemory], hwatchpoints⟩

lemma of_core (h : t.core = s.core) (hwatchpoints : t.gdb.watchpoints = s.gdb.watchpoints) :
    Keeps s t :=
  .of_eq (breakpoints_of_core h) (congrArg Scheduler.memory (scheduler_of_core h)) hwatchpoints

end Keeps

/-! ### Operations -/

lemma keeps_add {breakpoints : Breakpoints} {memory : Memory} {address : UInt32}
    (h : s.breakpoints.add address s.memory = .ok (some (breakpoints, memory))) :
    Keeps s (s.setBreakpoints breakpoints memory) :=
  ⟨fun ht => Breakpoints.aligned_of_add ht h, fun ht => Breakpoints.plain_of_add ht h, rfl⟩

lemma keeps_remove {breakpoints : Breakpoints} {memory : Memory} {address : UInt32}
    (h : s.breakpoints.remove address s.memory = .ok (breakpoints, memory)) :
    Keeps s (s.setBreakpoints breakpoints memory) :=
  ⟨fun ht => Breakpoints.aligned_of_remove ht h, fun ht => Breakpoints.plain_of_remove ht h, rfl⟩

lemma keeps_settle (s : Session) : Keeps s s.settle := by
  refine .of_eq rfl ?_ rfl
  change (if _ then _ else _ : Scheduler).memory = _
  split
  · rfl
  · rfl

lemma keeps_clearNextBreakpoint (s : Session) : Keeps s s.clearNextBreakpoint := by
  simp only [clearNextBreakpoint]
  split
  · exact .refl s
  · split
    · next hremove => exact (keeps_remove hremove).trans (.of_eq rfl rfl rfl)
    · exact .of_eq rfl rfl rfl

lemma keeps_cleared (s : Session) : Keeps s s.settle.clearNextBreakpoint :=
  (keeps_settle s).trans (keeps_clearNextBreakpoint s.settle)

lemma keeps_send (s : Session) (message : Message) : Keeps s (s.send message) := .of_eq rfl rfl rfl

lemma keeps_recordStop (s : Session) (reason : StopReason) : Keeps s (s.recordStop reason) :=
  .of_core (core_recordStop s reason) rfl

lemma keeps_pushUpdate (s : Session) : Keeps s s.pushUpdate := by
  refine .of_core (core_pushUpdate s) ?_
  simp only [pushUpdate]
  split
  · rfl
  · rfl

lemma keeps_afterStop (s : Session) : Keeps s s.afterStop := by
  have hreload : Keeps s s.reloadSymbols := by
    refine .of_core (core_reloadSymbols s) ?_
    simp only [reloadSymbols]
    split
    · split
      · rfl
      · rfl
    · rfl
  exact hreload.trans (keeps_pushUpdate s.reloadSymbols)

lemma keeps_halt (s : Session) (cause : StopCause) : Keeps s (s.halt cause) := by
  have hrecorded := (keeps_cleared s).trans (keeps_recordStop _ cause.reason)
  simp only [halt]
  split
  · exact (hrecorded.trans (keeps_send _ .stop)).trans (keeps_afterStop _)
  · exact hrecorded.trans (keeps_afterStop _)

lemma keeps_resume (s : Session) : Keeps s s.resume.2 := by
  simp only [resume]
  split
  · exact .refl s
  · split
    · exact .of_eq rfl rfl rfl
    · next hover => exact ⟨id, fun ht => Breakpoints.plain_stepOver ht hover, rfl⟩
    · next hover => exact ⟨id, fun ht => Breakpoints.plain_stepOver ht hover, rfl⟩

lemma keeps_step (s : Session) : Keeps s s.step.2 := by
  obtain ⟨-, hcore⟩ := step_cycle s
  have hwatchpoints : s.step.2.gdb.watchpoints = s.settle.clearNextBreakpoint.gdb.watchpoints := by
    simp only [step]
    split
    · rfl
    · exact ((keeps_recordStop _ _).trans (keeps_afterStop _)).watchpoints
  have hmemory := congrArg Scheduler.memory (scheduler_of_core hcore)
  refine (keeps_cleared s).trans ⟨fun ht => ?_, fun ht => ?_, hwatchpoints⟩
  · rw [breakpoints_of_core hcore]
    exact ht
  · rw [breakpoints_of_core hcore, Session.memory, hmemory]
    exact Breakpoints.plain_cycle ht _

lemma keeps_next (s : Session) : Keeps s s.next.2 := by
  refine (keeps_settle s).trans ?_
  generalize hnext : s.next.2 = t
  cases hnext ▸ nextCase s with
  | unreadable => exact .refl _
  | known => exact keeps_resume _
  | refused => exact .refl _
  | called _ _ _ _ breakpoints memory hadd =>
    have hadded : Keeps s.settle
        ({ s.settle with nextBreakpoint := some (s.settle.pc + 4) }.setBreakpoints
          breakpoints memory) := (keeps_add hadd).trans (.of_eq rfl rfl rfl)
    exact hadded.trans (keeps_resume _)
  | single => exact keeps_step _

lemma keeps_setBreakpoint (s : Session) (address : UInt32) :
    Keeps s (s.setBreakpoint address).2 := by
  simp only [setBreakpoint]
  split
  · exact .of_eq rfl rfl rfl
  · split
    · exact .refl s
    · exact .refl s
    · next hadd => exact keeps_add hadd

lemma keeps_unsetBreakpoint (s : Session) (address : UInt32) :
    Keeps s (s.unsetBreakpoint address).2 := by
  simp only [unsetBreakpoint]
  split
  · exact .refl s
  · next hremove =>
    dsimp only
    split
    · exact (keeps_remove hremove).trans (.of_eq rfl rfl rfl)
    · exact keeps_remove hremove

lemma keeps_launchSlice (s : Session) : Keeps s s.launchSlice := by
  simp only [launchSlice]
  split
  · exact .refl s
  · exact .of_eq rfl
      (Scheduler.memory_of_contents (Scheduler.contents_step s.scheduler s.sliceCycles)) rfl

lemma keeps_landed (s : Session) : Keeps s s.landed := .of_eq rfl rfl rfl

lemma keeps_onMachine (s : Session) {f : Machine → Machine}
    (hf : (f s.scheduler.machine).memory = s.scheduler.machine.memory) : Keeps s (s.onMachine f) :=
  .of_eq rfl hf rfl

lemma keeps_goTo (s : Session) (address : Option UInt32) : Keeps s (s.goTo address) := by
  cases address with
  | none => exact .refl s
  | some address => exact keeps_onMachine s rfl

/-! ### Actions -/

/-- A command of GDB leaves alone what is watched: it writes no memory, and neither sets a
watchpoint nor takes one away. -/
def SparesCommand (s : Session) : SerialCommand → Prop
  | .writeMemory address data => ∃ fault, (s.writeMemory address data).1 = .error fault
  | .insertPoint point | .removePoint point => point.kind ≠ .write ∧ point.kind ≠ .access
  | _ => True

/-- A slice is over, and has not come to a trap. -/
def EndsSlice (s : Session) : Prop :=
  s.runState = .running ∧
    ∃ status, status ≠ .breakpoint ∧ s.launchSlice.scheduler.poll = .ok (some status)

/-- An action leaves alone what is watched, and does not look whether it has changed. -/
def Spares (s : Session) : Action → Prop
  | .event (.message .restart) | .event .attached => False
  | .event .detached => s.gdb.attached = false
  | .event (.command command) | .execute command => s.SparesCommand command
  | .advance => ¬ s.EndsSlice
  | _ => True

lemma keeps_handleMessage (s : Session) {message : Message} (h : message ≠ .restart) :
    Keeps s (s.handleMessage message).2 := by
  cases message with
  | restart => exact absurd rfl h
  | stop => exact keeps_halt s .requested
  | resume => exact keeps_resume s
  | step => exact keeps_step s
  | next => exact keeps_next s
  | setBreakpoint address => exact keeps_setBreakpoint s address
  | unsetBreakpoint address => exact keeps_unsetBreakpoint s address
  | connect handshake =>
    change Keeps s s.connect.2
    simp only [connect]
    split
    · exact (keeps_pushUpdate s).trans (keeps_resume s.pushUpdate)
    · exact keeps_pushUpdate s
  | memoryWatch view =>
    change Keeps s (s.watch view).2
    simp only [watch]
    split
    · exact .of_eq rfl rfl rfl
    · split
      · exact .refl s
      · exact .of_eq rfl rfl rfl
  | unwatch id =>
    change Keeps s (s.unwatch id).2
    simp only [unwatch]
    split
    · exact .refl s
    · exact .of_eq rfl rfl rfl
  | disassembly view =>
    simp only [handleMessage]
    split
    · exact .refl s
    · exact keeps_send s _
  | tapeLoad index =>
    change Keeps s (s.loadTape index).2
    simp only [loadTape]
    split
    · exact .refl s
    · exact .of_eq rfl rfl rfl
  | symbolData symbols =>
    cases symbols with
    | nil => exact keeps_send s _
    | cons => exact .refl s
  | tapeRequest request => exact keeps_send s _
  | tapeUnload => exact .of_eq rfl rfl rfl
  | _ => exact .refl s

lemma keeps_executeSerial {command : SerialCommand} (h : s.SparesCommand command) :
    Keeps s (s.executeSerial command).2 := by
  cases command with
  | writeRegisters data =>
    change Keeps s (s.writeRegisters data)
    exact keeps_onMachine s rfl
  | writeRegister index data =>
    simp only [executeSerial, writeRegister]
    split
    · exact keeps_onMachine s rfl
    · split
      · exact .refl s
      · exact .refl s
  | readMemory address length =>
    simp only [executeSerial]
    split
    · exact .refl s
    · exact .refl s
  | writeMemory address data =>
    obtain ⟨fault, hfault⟩ := h
    have hstay : (s.writeMemory address data).2 = s :=
      harmless_writeMemory s address data fault hfault
    change Keeps s (s.writeMemory address data).2
    rw [hstay]
    exact .refl s
  | resume address =>
    rw [executeSerial_resume]
    exact (keeps_goTo s address).trans (keeps_resume _)
  | step address =>
    rw [executeSerial_step]
    exact (keeps_goTo s address).trans (keeps_step _)
  | insertPoint point =>
    obtain ⟨kind, address, length⟩ := point
    cases kind with
    | software => exact keeps_setBreakpoint s address
    | hardware => exact keeps_setBreakpoint s address
    | read => exact .refl s
    | write => exact absurd rfl h.1
    | access => exact absurd rfl h.2
  | removePoint point =>
    obtain ⟨kind, address, length⟩ := point
    cases kind with
    | software => exact keeps_unsetBreakpoint s address
    | hardware => exact keeps_unsetBreakpoint s address
    | read => exact .refl s
    | write => exact absurd rfl h.1
    | access => exact absurd rfl h.2
  | _ => exact .refl s

lemma keeps_reply (s : Session) (reply : Reply) : Keeps s (s.reply reply) := .of_eq rfl rfl rfl

lemma keeps_setOwesStop (s : Session) (owesStop : Bool) : Keeps s (s.setOwesStop owesStop) :=
  .of_eq rfl rfl rfl

lemma keeps_handleSerial {command : SerialCommand} (h : s.SparesCommand command) :
    Keeps s (s.handleSerial command) := by
  refine handleSerial_of_execute (fun t reply ht => ht.trans (keeps_reply t reply))
    (fun t owesStop ht => ht.trans (keeps_setOwesStop t owesStop)) ?_ fun _ => keeps_executeSerial h
  rintro address rfl
  exact (keeps_setOwesStop s true).trans (keeps_executeSerial trivial)

lemma keeps_advance (h : ¬ s.EndsSlice) : Keeps s s.advance.2 := by
  have hcase := sliceCase s
  generalize s.advance.2 = t at hcase
  cases hcase with
  | idle => exact .refl s
  | flying => exact keeps_launchSlice s
  | ended hrunning status hpoll _ hend =>
    cases hend with
    | trapped =>
      have hlanded := (keeps_launchSlice s).trans (keeps_landed s.launchSlice)
      exact hlanded.trans (keeps_halt _ _)
    | changed status hstatus w hw => exact absurd ⟨hrunning, status, hstatus, hpoll⟩ h
    | unchanged status hstatus hnone => exact absurd ⟨hrunning, status, hstatus, hpoll⟩ h

/-- An action that leaves alone what is watched keeps it in view as it is. -/
lemma keeps_act {a : Action} (h : s.Spares a) : Keeps s (s.act a) := by
  cases a with
  | event event =>
    cases event with
    | message message =>
      refine keeps_handleMessage s ?_
      rintro rfl
      exact h
    | peerLost => exact .refl s
    | attached => exact h.elim
    | command command => exact keeps_handleSerial h
    | interrupt =>
      change Keeps s s.interrupt
      simp only [interrupt]
      split
      · exact keeps_halt s .interrupted
      · exact .refl s
    | detached =>
      have hstay : s.detach.2 = s := by
        have hdetached : ¬ s.gdb.attached = true := by
          rw [show s.gdb.attached = false from h]
          decide
        rw [detach, if_neg hdetached]
      change Keeps s s.detach.2
      rw [hstay]
      exact .refl s
  | execute command => exact keeps_executeSerial h
  | advance => exact keeps_advance h
  | interrupt irq =>
    exact .of_eq rfl (Scheduler.memory_of_contents (Scheduler.contents_interrupt s.scheduler irq))
      rfl
  | expect arrivals => exact .of_eq rfl rfl rfl
  | shutdown => exact .of_eq rfl rfl rfl
  | invalidate => exact .of_eq rfl rfl rfl
  | connected value => exact .of_eq rfl rfl rfl

end Session
end RemoteDebugger
