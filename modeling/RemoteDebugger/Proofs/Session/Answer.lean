/-
# How the commands of GDB are answered

Every command of GDB is answered once, but for the one that kills.  Most commands are answered
as soon as they have been carried out; one that lets the machine run is answered at the next
stop, and until then the answer is *owed*.

There is room for one answer that is owed.  It is lost if GDB lets a machine run that runs
already, since the new command takes the place of the old, and it is late if a *next* is refused,
since that stops the machine and tells nobody.  As long as neither happens, and no longer, the
commands that were handled are those that have been answered and the one whose stop is ahead
(`accounted_iff_not_forsakes`).
-/
import RemoteDebugger.Proofs.Session.Failure

namespace RemoteDebugger

namespace Action

/-- Whether an action is a command that is to be answered. -/
def asks : Action → Bool
  | .event (.command command) => command ≠ .kill
  | _ => false

end Action

namespace Session

variable {s t u : Session} {a : Action}

/-! ### The dialogue with GDB -/

/-- What has been said to GDB, and what is owed to it. -/
structure Dialogue where
  /-- The replies that were sent. -/
  replies : Array Reply
  /-- Whether GDB is owed the reason of the next stop. -/
  owesStop : Bool
  /-- Why the machine stopped last. -/
  lastStop : StopReason

/-- The dialogue of a session with GDB. -/
def dialogue (s : Session) : Dialogue :=
  { replies := s.replies, owesStop := s.gdb.owesStop, lastStop := s.gdb.lastStop }

namespace Dialogue

/-- The machine has stopped, and GDB is told if it is owed the reason. -/
def stop (d : Dialogue) (reason : StopReason) : Dialogue :=
  { replies := if d.owesStop then d.replies.push (.stop reason) else d.replies
    owesStop := false
    lastStop := reason }

/-- A command is answered. -/
def answer (d : Dialogue) (reply : Reply) : Dialogue := { d with replies := d.replies.push reply }

/-- A command is to be answered at the next stop, or none is. -/
def setOwesStop (d : Dialogue) (owesStop : Bool) : Dialogue := { d with owesStop }

/-- How many answers there are, with the one that is owed. -/
def answers (d : Dialogue) : Nat := d.replies.size + d.owesStop.toNat

variable {d : Dialogue}

lemma stop_of_owed (h : d.owesStop = true) (reason : StopReason) :
    d.stop reason =
      { replies := d.replies.push (.stop reason), owesStop := false, lastStop := reason } := by
  rw [stop, if_pos h]

lemma stop_of_free (h : d.owesStop = false) (reason : StopReason) :
    d.stop reason = { replies := d.replies, owesStop := false, lastStop := reason } := by
  rw [stop, if_neg (by simp [h])]

@[simp] lemma answers_stop (d : Dialogue) (reason : StopReason) :
    (d.stop reason).answers = d.answers := by
  cases h : d.owesStop with
  | false => simp [stop_of_free h, answers, h]
  | true => simp [stop_of_owed h, answers, h]

@[simp] lemma answers_answer (d : Dialogue) (reply : Reply) :
    (d.answer reply).answers = d.answers + 1 := by
  simp only [answers, answer, Array.size_push]
  omega

lemma answers_setOwesStop (h : d.owesStop = false) :
    (d.setOwesStop true).answers = d.answers + 1 := by
  simp [answers, setOwesStop, h]

end Dialogue

@[simp] lemma dialogue_send (s : Session) (message : Message) :
    (s.send message).dialogue = s.dialogue := rfl

@[simp] lemma dialogue_settle (s : Session) : s.settle.dialogue = s.dialogue := rfl

@[simp] lemma dialogue_reply (s : Session) (reply : Reply) :
    (s.reply reply).dialogue = s.dialogue.answer reply := rfl

@[simp] lemma dialogue_setOwesStop (s : Session) (owesStop : Bool) :
    (s.setOwesStop owesStop).dialogue = s.dialogue.setOwesStop owesStop := rfl

@[simp] lemma dialogue_goTo (s : Session) (address : Option UInt32) :
    (s.goTo address).dialogue = s.dialogue := by
  cases address with
  | none => rfl
  | some address => rfl

@[simp] lemma dialogue_clearNextBreakpoint (s : Session) :
    s.clearNextBreakpoint.dialogue = s.dialogue := by
  simp only [clearNextBreakpoint]
  split
  · rfl
  · split
    · rfl
    · rfl

@[simp] lemma dialogue_recordStop (s : Session) (reason : StopReason) :
    (s.recordStop reason).dialogue = s.dialogue.stop reason := by
  simp only [recordStop]
  split
  · next howed => exact (Dialogue.stop_of_owed (d := s.dialogue) howed reason).symm
  · next hfree =>
    rw [Bool.not_eq_true] at hfree
    exact (Dialogue.stop_of_free (d := s.dialogue) hfree reason).symm

@[simp] lemma dialogue_pushUpdate (s : Session) : s.pushUpdate.dialogue = s.dialogue := by
  simp only [pushUpdate]
  split
  · rfl
  · rfl

@[simp] lemma dialogue_afterStop (s : Session) : s.afterStop.dialogue = s.dialogue := by
  rw [afterStop, dialogue_pushUpdate]
  simp only [reloadSymbols]
  split
  · split
    · rfl
    · rfl
  · rfl

@[simp] lemma dialogue_halt (s : Session) (cause : StopCause) :
    (s.halt cause).dialogue = s.dialogue.stop cause.reason := by
  simp only [halt]
  rw [dialogue_afterStop]
  split
  · rw [dialogue_send, dialogue_recordStop, dialogue_clearNextBreakpoint, dialogue_settle]
  · rw [dialogue_recordStop, dialogue_clearNextBreakpoint, dialogue_settle]

@[simp] lemma dialogue_resume (s : Session) : s.resume.2.dialogue = s.dialogue := by
  simp only [resume]
  split
  · rfl
  · split
    · rfl
    · rfl
    · rfl

@[simp] lemma dialogue_launchSlice (s : Session) : s.launchSlice.dialogue = s.dialogue := by
  simp only [launchSlice]
  split
  · rfl
  · rfl

/-! ### What GDB hears of an operation -/

/-- A stop that GDB is owed is still to come: the machine runs, unless it is shut down. -/
def StopAhead (s : Session) : Prop :=
  s.gdb.owesStop = true → s.scheduler.live = true → s.runState = .running

/-- What GDB hears of something that happens to a session. -/
inductive Hears (s t : Session) : Prop where
  /-- Nothing. -/
  | nothing (h : t.dialogue = s.dialogue) (hahead : t.StopAhead)
  /-- The machine has stopped. -/
  | stop (reason : StopReason) (h : t.dialogue = s.dialogue.stop reason)
    (hstopped : t.runState = .stopped)

/-- How an answer that GDB is owed is forsaken. -/
inductive Forsakes (s : Session) : Action → Prop where
  /-- GDB lets the machine run again, and the new command takes the place of the old. -/
  | replaced (howed : s.gdb.owesStop = true) (address : Option UInt32) :
    Forsakes s (.event (.command (.resume address)))
  /-- A *next* is refused, which stops the machine. -/
  | missed (howed : s.gdb.owesStop = true) (fault : Fault) (hfault : s.next.1 = .error fault)
    (hlive : s.next.2.scheduler.live = true) : Forsakes s (.event (.message .next))

/-- Nothing has been said to GDB, and the machine runs if it ran. -/
structure Quiet (s t : Session) : Prop where
  /-- The dialogue is as it was. -/
  dialogue : t.dialogue = s.dialogue
  /-- The run state is as it was. -/
  runState : t.runState = s.runState

lemma stopAhead_of_not_owed (h : t.dialogue.owesStop = false) : t.StopAhead := by
  intro howed
  exact absurd (howed.symm.trans h) (by decide)

lemma stopAhead_resume (s : Session) : s.resume.2.StopAhead := by
  intro _ hlive
  obtain ⟨y, -, hcore | ⟨hdead, hcore⟩⟩ := resume_cases s
  · exact congrArg Core.runState hcore
  · rw [scheduler_of_core hcore] at hlive
    exact absurd (hdead.symm.trans hlive) (by decide)

namespace Hears

lemma stopAhead (h : Hears s t) : t.StopAhead := by
  cases h with
  | nothing h hahead => exact hahead
  | stop reason h hstopped => exact stopAhead_of_not_owed (congrArg Dialogue.owesStop h)

lemma answers (h : Hears s t) : t.dialogue.answers = s.dialogue.answers := by
  cases h with
  | nothing h hahead => rw [h]
  | stop reason h hstopped => rw [h, Dialogue.answers_stop]

lemma of_dialogue (h : Hears u t) (hu : u.dialogue = s.dialogue) : Hears s t := by
  cases h with
  | nothing h hahead => exact .nothing (h.trans hu) hahead
  | stop reason h hstopped => exact .stop reason (hu ▸ h) hstopped

lemma of_quiet (h : s.StopAhead) (hquiet : Quiet s t)
    (hlive : t.scheduler.live = true → s.scheduler.live = true) : Hears s t := by
  refine .nothing hquiet.dialogue fun howed htlive => hquiet.runState.trans (h ?_ (hlive htlive))
  exact (congrArg Dialogue.owesStop hquiet.dialogue).symm.trans howed

protected lemma halt (s : Session) (cause : StopCause) : Hears s (s.halt cause) :=
  .stop cause.reason (dialogue_halt s cause) (runState_halt s cause)

protected lemma resume (s : Session) : Hears s s.resume.2 :=
  .nothing (dialogue_resume s) (stopAhead_resume s)

end Hears

lemma runState_of_core {c : Core} (h : s.core = c) : s.runState = c.runState :=
  congrArg Core.runState h

lemma dialogue_afterCycle (s : Session) (y : Scheduler) : (s.afterCycle y).dialogue = s.dialogue :=
  dialogue_clearNextBreakpoint s.settle

lemma runState_afterCycle (s : Session) (y : Scheduler) : (s.afterCycle y).runState = .stopped := by
  have hhalt : (s.halt .requested).runState = s.settle.clearNextBreakpoint.runState :=
    runState_of_core (core_halt s .requested)
  exact hhalt.symm.trans (runState_halt s .requested)

lemma hears_step (s : Session) : Hears s s.step.2 := by
  have hcase := stepCase s
  generalize s.step = result at hcase
  cases hcase with
  | dead y h fault =>
    refine .nothing (dialogue_afterCycle s y) fun _ hlive => ?_
    exact absurd (h.symm.trans hlive) (by decide)
  | done y h status =>
    refine .stop (stepReason status) ?_ ?_
    · dsimp only
      rw [dialogue_afterStop, dialogue_recordStop, dialogue_afterCycle]
    · exact (runState_of_core ((core_afterStop _).trans (core_recordStop _ _))).trans
        (runState_afterCycle s y)

lemma hears_next (h : ¬ s.Forsakes (.event (.message .next))) : Hears s s.next.2 := by
  rcases next_cases s with ⟨fault, hnext⟩ | ⟨t, hgdb, hreplies, hnext⟩ | hnext
  · -- the machine has stopped and nobody is told, so nothing may have been owed
    have hsettle : s.next.2 = s.settle := congrArg Prod.snd hnext
    refine .nothing (hsettle ▸ dialogue_settle s) fun howed hlive => ?_
    rw [hsettle] at howed
    exact absurd (.missed howed fault (congrArg Prod.fst hnext) hlive) h
  · have hdialogue : t.dialogue = s.dialogue := by
      rw [dialogue, hgdb, hreplies]
      rfl
    rw [hnext]
    exact (Hears.resume t).of_dialogue hdialogue
  · rw [hnext]
    exact (hears_step s.settle).of_dialogue rfl

/-- A restart lets the machine run if it was running. -/
lemma exists_restart (s : Session) : ∃ t : Session, t.dialogue = s.dialogue ∧
    s.restart.2 = if s.isRunning then t.resume.2 else t := by
  refine ⟨s.afterReset.afterStop, ?_, restart_eq s⟩
  rw [dialogue_afterStop]
  exact dialogue_clearNextBreakpoint s.settle

lemma hears_restart (h : s.StopAhead) : Hears s s.restart.2 := by
  obtain ⟨t, hdialogue, hrestart⟩ := exists_restart s
  have hlive := live_of_live_restart (s := s)
  rw [hrestart] at hlive ⊢
  split
  · exact (Hears.resume t).of_dialogue hdialogue
  · next hrunning =>
    -- a stopped session stays stopped, but then no stop was owed
    rw [if_neg hrunning] at hlive
    refine .nothing hdialogue fun howed htlive => ?_
    have hs : s.runState = .running :=
      h ((congrArg Dialogue.owesStop hdialogue).symm.trans howed) (hlive htlive)
    exact absurd (beq_of_eq hs) hrunning

lemma dialogue_of_pollWatchpoints {w : Option Watchpoint} (h : s.pollWatchpoints = (w, t)) :
    t.dialogue = s.dialogue := by
  obtain rfl : s.refreshWatchpoints = t := congrArg Prod.snd h
  rfl

lemma hears_endSlice (hrunning : s.runState = .running) (status : Status) :
    Hears s (s.endSlice status) := by
  simp only [endSlice]
  split
  · exact (Hears.halt _ _).of_dialogue rfl
  · split
    · next seen hseen =>
      exact (Hears.halt _ _).of_dialogue ((dialogue_of_pollWatchpoints hseen).trans rfl)
    · next seen hseen =>
      refine .nothing ((dialogue_of_pollWatchpoints hseen).trans rfl) fun _ _ => ?_
      exact (runState_of_core (core_of_pollWatchpoints hseen)).trans hrunning

lemma hears_advance (h : s.StopAhead) : Hears s s.advance.2 := by
  simp only [advance]
  split
  · exact .nothing rfl h
  · next hnot =>
    have hrunning : s.launchSlice.runState = .running := by
      have hs : s.isRunning = true := by simpa using hnot
      rw [runState_of_core (launchSlice_spec s).2]
      exact eq_of_beq hs
    split
    · exact .nothing (dialogue_launchSlice s) fun _ _ => hrunning
    · exact .nothing (dialogue_launchSlice s) fun _ _ => hrunning
    · exact (hears_endSlice hrunning _).of_dialogue (dialogue_launchSlice s)

/-! ### What GDB hears of a request -/

lemma quiet_onMachine (s : Session) (f : Machine → Machine) : Quiet s (s.onMachine f) :=
  ⟨rfl, rfl⟩

lemma quiet_setBreakpoint (s : Session) (address : UInt32) :
    Quiet s (s.setBreakpoint address).2 := by
  simp only [setBreakpoint]
  split
  · exact ⟨rfl, rfl⟩
  · split
    · exact ⟨rfl, rfl⟩
    · exact ⟨rfl, rfl⟩
    · exact ⟨rfl, rfl⟩

lemma quiet_unsetBreakpoint (s : Session) (address : UInt32) :
    Quiet s (s.unsetBreakpoint address).2 := by
  simp only [unsetBreakpoint]
  split
  · exact ⟨rfl, rfl⟩
  · dsimp only
    split
    · exact ⟨rfl, rfl⟩
    · exact ⟨rfl, rfl⟩

lemma quiet_writeMemory (s : Session) (address : UInt32) (data : List UInt8) :
    Quiet s (s.writeMemory address data).2 := by
  simp only [writeMemory]
  split
  · exact ⟨rfl, rfl⟩
  · exact ⟨rfl, rfl⟩

lemma quiet_watch (s : Session) (view : MemoryView) : Quiet s (s.watch view).2 := by
  simp only [watch]
  split
  · exact ⟨rfl, rfl⟩
  · split
    · exact ⟨rfl, rfl⟩
    · exact ⟨rfl, rfl⟩

lemma hears_connect (h : s.StopAhead) : Hears s s.connect.2 := by
  have hupdate : s.pushUpdate.core = s.core := core_pushUpdate s
  simp only [connect]
  split
  · exact (Hears.resume s.pushUpdate).of_dialogue (dialogue_pushUpdate s)
  · refine .of_quiet h ⟨dialogue_pushUpdate s, runState_of_core hupdate⟩ fun hlive => ?_
    rwa [scheduler_of_core hupdate] at hlive

lemma hears_handleMessage (h : s.StopAhead) {message : Message}
    (hforsakes : ¬ s.Forsakes (.event (.message message))) :
    Hears s (s.handleMessage message).2 := by
  have hlive : (s.handleMessage message).2.scheduler.live = true → s.scheduler.live = true :=
    live_of_live_act (a := .event (.message message))
  cases message with
  | connect handshake => exact hears_connect h
  | stop => exact .halt s .requested
  | resume => exact .resume s
  | step => exact hears_step s
  | next => exact hears_next hforsakes
  | restart => exact hears_restart h
  | setBreakpoint address => exact .of_quiet h (quiet_setBreakpoint s address) hlive
  | unsetBreakpoint address => exact .of_quiet h (quiet_unsetBreakpoint s address) hlive
  | memoryWatch view => exact .of_quiet h (quiet_watch s view) hlive
  | unwatch id =>
    refine .of_quiet h ?_ hlive
    change Quiet s (s.unwatch id).2
    simp only [unwatch]
    split
    · exact ⟨rfl, rfl⟩
    · exact ⟨rfl, rfl⟩
  | disassembly view =>
    refine .of_quiet h ?_ hlive
    simp only [handleMessage]
    split
    · exact ⟨rfl, rfl⟩
    · exact ⟨rfl, rfl⟩
  | tapeLoad index =>
    refine .of_quiet h ?_ hlive
    change Quiet s (s.loadTape index).2
    simp only [loadTape]
    split
    · exact ⟨rfl, rfl⟩
    · exact ⟨rfl, rfl⟩
  | symbolData symbols =>
    cases symbols with
    | nil => exact .of_quiet h ⟨rfl, rfl⟩ hlive
    | cons => exact .of_quiet h ⟨rfl, rfl⟩ hlive
  | _ => exact .of_quiet h ⟨rfl, rfl⟩ hlive

lemma quiet_insertPoint (s : Session) (point : Point) : Quiet s (s.insertPoint point).2 := by
  obtain ⟨kind, address, length⟩ := point
  have hwatch (kind : PointKind) :
      Quiet s (s.insertWatchpoint { kind, address, length }).2 := by
    simp only [insertWatchpoint]
    split
    · exact ⟨rfl, rfl⟩
    · split
      · exact ⟨rfl, rfl⟩
      · exact ⟨rfl, rfl⟩
  cases kind with
  | software => exact quiet_setBreakpoint s address
  | hardware => exact quiet_setBreakpoint s address
  | write => exact hwatch .write
  | read => exact ⟨rfl, rfl⟩
  | access => exact hwatch .access

lemma quiet_removePoint (s : Session) (point : Point) : Quiet s (s.removePoint point).2 := by
  obtain ⟨kind, address, length⟩ := point
  cases kind with
  | software => exact quiet_unsetBreakpoint s address
  | hardware => exact quiet_unsetBreakpoint s address
  | _ => exact ⟨rfl, rfl⟩

lemma executeSerial_resume (s : Session) (address : Option UInt32) :
    (s.executeSerial (.resume address)).2 = (s.goTo address).resume.2 := by
  simp only [executeSerial]
  split
  · next h => rw [h]
  · next h => rw [h]

lemma executeSerial_step (s : Session) (address : Option UInt32) :
    (s.executeSerial (.step address)).2 = (s.goTo address).step.2 := by
  simp only [executeSerial]
  split
  · next h => rw [h]
  · next h => rw [h]
  · next h => rw [h]

lemma hears_executeSerial (h : s.StopAhead) (command : SerialCommand) :
    Hears s (s.executeSerial command).2 := by
  have hlive : (s.executeSerial command).2.scheduler.live = true → s.scheduler.live = true :=
    live_of_live_act (a := .execute command)
  cases command with
  | writeRegisters data => exact .of_quiet h (quiet_onMachine s _) hlive
  | writeRegister index data =>
    refine .of_quiet h ?_ hlive
    change Quiet s (s.writeRegister index data).2
    simp only [writeRegister]
    split
    · exact quiet_onMachine s _
    · split
      · exact ⟨rfl, rfl⟩
      · exact ⟨rfl, rfl⟩
  | readMemory address length =>
    refine .of_quiet h ?_ hlive
    simp only [executeSerial]
    split
    · exact ⟨rfl, rfl⟩
    · exact ⟨rfl, rfl⟩
  | writeMemory address data => exact .of_quiet h (quiet_writeMemory s address data) hlive
  | resume address =>
    rw [executeSerial_resume]
    exact (Hears.resume _).of_dialogue (dialogue_goTo s address)
  | step address =>
    rw [executeSerial_step]
    exact (hears_step _).of_dialogue (dialogue_goTo s address)
  | insertPoint point => exact .of_quiet h (quiet_insertPoint s point) hlive
  | removePoint point => exact .of_quiet h (quiet_removePoint s point) hlive
  | _ => exact .of_quiet h ⟨rfl, rfl⟩ hlive

/-! ### Answers -/

/-- What an action has to do with the commands that are to be answered: a session is `t` after
an action of `s`. -/
inductive Answered (s : Session) : Action → Session → Prop where
  /-- The machine cannot run: the command is answered at once, with an error number. -/
  | refused (address : Option UInt32) (code : UInt8) (t : Session)
    (hfree : s.gdb.owesStop = false) (h : t.dialogue = s.dialogue.answer (.error code)) :
    Answered s (.event (.command (.resume address))) t
  /-- The machine runs: nothing is said, and from now on GDB is owed the reason of the stop. -/
  | deferred (address : Option UInt32) (t : Session) (hfree : s.gdb.owesStop = false)
    (h : t.dialogue = s.dialogue.setOwesStop true) (hrunning : t.runState = .running) :
    Answered s (.event (.command (.resume address))) t
  /-- Another command is answered at once, behind what GDB hears of it. -/
  | command (command : SerialCommand) (hkill : command ≠ .kill)
    (hresume : ∀ address, command ≠ .resume address) (t : Session) (hhears : Hears s t)
    (reply : Reply) : Answered s (.event (.command command)) (t.reply reply)
  /-- Anything else has no answer. -/
  | unasked (a : Action) (hasks : a.asks = false) (t : Session) (hhears : Hears s t) :
    Answered s a t

namespace Answered

lemma stopAhead (h : Answered s a t) : t.StopAhead := by
  cases h with
  | refused address code t hfree h =>
    exact stopAhead_of_not_owed ((congrArg Dialogue.owesStop h).trans hfree)
  | deferred address t hfree h hrunning => exact fun _ _ => hrunning
  | command command hkill hresume t hhears reply => exact hhears.stopAhead
  | unasked a hasks t hhears => exact hhears.stopAhead

/-- A command that is to be answered adds one answer, there or owed, and nothing else adds any. -/
lemma answers (h : Answered s a t) :
    t.dialogue.answers = s.dialogue.answers + if a.asks then 1 else 0 := by
  cases h with
  | refused address code t hfree h => rw [h, Dialogue.answers_answer]; rfl
  | deferred address t hfree h hrunning => rw [h, Dialogue.answers_setOwesStop hfree]; rfl
  | command command hkill hresume t hhears reply =>
    rw [dialogue_reply, Dialogue.answers_answer, hhears.answers, Action.asks, if_pos (by simpa)]
  | unasked a hasks t hhears =>
    rw [hhears.answers, hasks]
    rfl

end Answered

lemma exists_reply_ofResult {α : Type} (outcome : Except Fault α) :
    ∃ reply, SerialOutcome.ofResult outcome = .reply reply := by
  cases outcome with
  | error fault => exact ⟨_, rfl⟩
  | ok value => exact ⟨_, rfl⟩

/-- A command that neither lets the machine run nor kills is answered at once. -/
lemma exists_reply {command : SerialCommand} (hkill : command ≠ .kill)
    (hresume : ∀ address, command ≠ .resume address) :
    ∃ reply, (s.executeSerial command).1 = .reply reply := by
  cases command with
  | kill => exact absurd rfl hkill
  | resume address => exact absurd rfl (hresume address)
  | readMemory address length =>
    simp only [executeSerial]
    split
    · exact ⟨_, rfl⟩
    · exact ⟨_, rfl⟩
  | writeMemory address data => exact exists_reply_ofResult _
  | step address =>
    simp only [executeSerial]
    split
    · exact ⟨_, rfl⟩
    · exact ⟨_, rfl⟩
    · exact ⟨_, rfl⟩
  | insertPoint point =>
    obtain ⟨kind, address, length⟩ := point
    cases kind with
    | software => exact exists_reply_ofResult _
    | hardware => exact exists_reply_ofResult _
    | _ => exact ⟨_, rfl⟩
  | removePoint point =>
    obtain ⟨kind, address, length⟩ := point
    cases kind with
    | software => exact exists_reply_ofResult _
    | hardware => exact exists_reply_ofResult _
    | _ => exact ⟨_, rfl⟩
  | _ => exact ⟨_, rfl⟩

lemma handleSerial_of_reply {command : SerialCommand} {reply : Reply}
    (hresume : ∀ address, command ≠ .resume address)
    (h : (s.executeSerial command).1 = .reply reply) :
    s.handleSerial command = (s.executeSerial command).2.reply reply := by
  simp only [handleSerial]
  split
  · next heq =>
    rw [heq] at h ⊢
    cases h
    rfl
  · next heq =>
    rw [heq] at h
    cases h
  · next heq =>
    rw [heq] at h
    cases h

/-- What answers do not change holds after a command if it holds when the command has been
carried out; one that lets the machine run is carried out with its answer owed. -/
lemma handleSerial_of_execute {P : Session → Prop} {command : SerialCommand}
    (hreply : ∀ t reply, P t → P (t.reply reply))
    (howes : ∀ t owesStop, P t → P (t.setOwesStop owesStop))
    (hresume : ∀ address, command = .resume address →
      P ((s.setOwesStop true).executeSerial command).2)
    (hother : (∀ address, command ≠ .resume address) → P (s.executeSerial command).2) :
    P (s.handleSerial command) := by
  simp only [handleSerial]
  split
  · next address =>
    have hexecuted := hresume address rfl
    split
    · next h =>
      rw [h] at hexecuted
      exact hreply _ _ (howes _ _ hexecuted)
    · next h =>
      rw [h] at hexecuted
      exact hexecuted
    · next h =>
      rw [h] at hexecuted
      exact hexecuted
  · next hne =>
    have hexecuted := hother hne
    split
    · next h =>
      rw [h] at hexecuted
      exact hreply _ _ hexecuted
    · next h =>
      rw [h] at hexecuted
      exact hexecuted
    · next h =>
      rw [h] at hexecuted
      exact hexecuted

lemma runState_resume (h : s.resume.1 = .ok ()) : s.resume.2.runState = .running := by
  simp only [resume] at h ⊢
  split
  · next hrunning => exact eq_of_beq hrunning
  · next hstopped =>
    rw [if_neg hstopped] at h
    split
    · rfl
    · rfl
    · next hover =>
      rw [hover] at h
      cases h

/-- A command that lets the machine run is refused, and then nothing is owed any more; or the
machine runs, and the reason of its stop is owed. -/
lemma handleSerial_resume (s : Session) (address : Option UInt32) :
    (∃ code, (s.handleSerial (.resume address)).dialogue =
      (s.dialogue.setOwesStop false).answer (.error code)) ∨
    (s.handleSerial (.resume address)).dialogue = s.dialogue.setOwesStop true ∧
      (s.handleSerial (.resume address)).runState = .running := by
  have hdialogue : ((s.setOwesStop true).goTo address).resume.2.dialogue =
      s.dialogue.setOwesStop true := by
    -- the answer is owed before it is known whether the machine can run
    rw [dialogue_resume, dialogue_goTo, dialogue_setOwesStop]
  have hrunning := runState_resume (s := (s.setOwesStop true).goTo address)
  simp only [handleSerial, executeSerial]
  generalize ((s.setOwesStop true).goTo address).resume = result at hdialogue hrunning ⊢
  obtain ⟨fault | _, t⟩ := result
  · refine Or.inl ⟨fault.errorCode, ?_⟩
    dsimp only at hdialogue ⊢
    rw [dialogue_reply, dialogue_setOwesStop, hdialogue]
    rfl
  · exact Or.inr ⟨hdialogue, hrunning rfl⟩

lemma answered_resume (hfree : s.gdb.owesStop = false) (address : Option UInt32) :
    Answered s (.event (.command (.resume address))) (s.handleSerial (.resume address)) := by
  rcases handleSerial_resume s address with ⟨code, h⟩ | ⟨h, hrunning⟩
  · have hkeep : s.dialogue.setOwesStop false = s.dialogue := by
      rw [← hfree]
      rfl
    rw [hkeep] at h
    exact .refused address code _ hfree h
  · exact .deferred address _ hfree h hrunning

lemma answered_handleSerial (h : s.StopAhead) {command : SerialCommand}
    (hforsakes : ¬ s.Forsakes (.event (.command command))) :
    Answered s (.event (.command command)) (s.handleSerial command) := by
  by_cases hkill : command = .kill
  · subst hkill
    exact .unasked _ rfl _ (.of_quiet h ⟨rfl, rfl⟩ id)
  by_cases hresume : ∃ address, command = .resume address
  · obtain ⟨address, rfl⟩ := hresume
    refine answered_resume ?_ address
    rw [← Bool.not_eq_true]
    exact fun howed => hforsakes (.replaced howed address)
  · rw [not_exists] at hresume
    obtain ⟨reply, hreply⟩ := exists_reply hkill hresume
    rw [handleSerial_of_reply hresume hreply]
    exact .command command hkill hresume _ (hears_executeSerial h command) reply

/-- Commands are answered as they should be as long as no answer that is owed is forsaken. -/
lemma answered_act (h : s.StopAhead) (hattached : a ≠ .event .attached)
    (hdetached : a ≠ .event .detached) (hforsakes : ¬ s.Forsakes a) : Answered s a (s.act a) := by
  have hlive : (s.act a).scheduler.live = true → s.scheduler.live = true := live_of_live_act
  cases a with
  | event event =>
    cases event with
    | message message => exact .unasked _ rfl _ (hears_handleMessage h hforsakes)
    | peerLost => exact .unasked _ rfl _ (.of_quiet h ⟨rfl, rfl⟩ hlive)
    | attached => exact absurd rfl hattached
    | command command => exact answered_handleSerial h hforsakes
    | interrupt =>
      refine .unasked _ rfl _ ?_
      change Hears s s.interrupt
      rw [interrupt]
      split
      · exact .halt s .interrupted
      · exact .nothing rfl h
    | detached => exact absurd rfl hdetached
  | execute command => exact .unasked _ rfl _ (hears_executeSerial h command)
  | advance => exact .unasked _ rfl _ (hears_advance h)
  | _ => exact .unasked _ rfl _ (.of_quiet h ⟨rfl, rfl⟩ hlive)

/-! ### Runs -/

/-- Along a run in which no answer that is owed is forsaken, the stop that is owed is always
ahead, and every command adds one answer. -/
lemma answered_run {actions : List Action} (h : s.StopAhead)
    (hattached : ∀ a ∈ actions, a ≠ .event .attached ∧ a ≠ .event .detached)
    (hforsakes : ∀ before a, before ++ [a] <+: actions → ¬ (s.run before).Forsakes a) :
    (s.run actions).StopAhead ∧
      (s.run actions).dialogue.answers = s.dialogue.answers + actions.countP Action.asks := by
  induction actions generalizing s with
  | nil => exact ⟨h, rfl⟩
  | cons a rest ih =>
    obtain ⟨hattach, hdetach⟩ := hattached a List.mem_cons_self
    have hact : Answered s a (s.act a) :=
      answered_act h hattach hdetach (hforsakes [] a (List.prefix_append _ rest))
    obtain ⟨hahead, hanswers⟩ := ih hact.stopAhead
      (fun b hb => hattached b (List.mem_cons_of_mem a hb))
      fun before b hbefore => hforsakes (a :: before) b (List.cons_prefix_cons.2 ⟨rfl, hbefore⟩)
    refine ⟨hahead, ?_⟩
    change ((s.act a).run rest).dialogue.answers = _
    rw [hanswers, hact.answers, List.countP_cons]
    omega

/-- After the actions of a run the commands that were handled are those that have been answered
and the one whose stop is ahead. -/
structure Accounted (start : Session) (handled : List Action) : Prop where
  /-- Each command has been answered or is owed the reason of a stop. -/
  answers : (start.run handled).replies.size + (start.run handled).gdb.owesStop.toNat =
    start.replies.size + handled.countP Action.asks
  /-- The stop that is owed is still to come. -/
  ahead : (start.run handled).StopAhead

lemma not_accounted_of_forsakes {before : List Action} (h : Accounted s before)
    (hforsakes : (s.run before).Forsakes a) : ¬ Accounted s (before ++ [a]) := by
  rintro ⟨hanswers, hahead⟩
  have hbefore := h.answers
  rw [run_append] at hanswers hahead
  rw [List.countP_append] at hanswers
  generalize s.run before = t at hforsakes hbefore hanswers hahead
  cases hforsakes with
  | replaced howed address =>
    -- there is one command more, but no answer more
    have hsame : (t.handleSerial (.resume address)).dialogue.answers = t.replies.size + 1 := by
      rcases handleSerial_resume t address with ⟨code, heq⟩ | ⟨heq, -⟩
      · exact (congrArg Dialogue.answers heq).trans (Dialogue.answers_answer _ _)
      · exact congrArg Dialogue.answers heq
    have hmore : (t.handleSerial (.resume address)).dialogue.answers =
      s.replies.size + (before.countP Action.asks + 1) := hanswers
    rw [howed, Bool.toNat_true] at hbefore
    omega
  | missed howed fault hfault hlive =>
    -- the stop that is owed has gone by
    have hsettle : t.next.2 = t.settle := next_of_error hfault hlive
    have hnext : t.next.2.StopAhead := hahead
    rw [hsettle] at hnext hlive
    have hrunning : RunState.stopped = .running := hnext howed hlive
    cases hrunning

lemma accounted_of_not_forsakes {actions : List Action} (hfree : s.gdb.owesStop = false)
    (hattached : ∀ a ∈ actions, a ≠ .event .attached ∧ a ≠ .event .detached)
    (hforsakes : ∀ before a, before ++ [a] <+: actions → ¬ (s.run before).Forsakes a) :
    Accounted s actions := by
  obtain ⟨hahead, hanswers⟩ :=
    answered_run (stopAhead_of_not_owed hfree) hattached hforsakes
  refine ⟨hanswers.trans ?_, hahead⟩
  rw [Dialogue.answers, show s.dialogue.owesStop = false from hfree]
  rfl

lemma owesStop_attach (s : Session) : s.attach.gdb.owesStop = false := by
  have hdialogue := dialogue_halt { s with gdb := { attached := true }, started := true } .attached
  exact congrArg Dialogue.owesStop hdialogue

/-- While GDB is attached, the commands that were handled are at every point those that have been
answered and the one whose stop is ahead, exactly as long as no answer that is owed is forsaken;
and so long each command is answered as it should be. -/
theorem accounted_iff_not_forsakes (s : Session) (actions : List Action)
    (hattached : ∀ a ∈ actions, a ≠ .event .attached ∧ a ≠ .event .detached) :
    let start := s.attach
    ((∀ before, before <+: actions → Accounted start before) ↔
      ∀ before a, before ++ [a] <+: actions → ¬ (start.run before).Forsakes a) ∧
    ((∀ before a, before ++ [a] <+: actions → ¬ (start.run before).Forsakes a) →
      ∀ before a, before ++ [a] <+: actions →
        Answered (start.run before) a (start.run (before ++ [a]))) := by
  intro start
  have hfree : start.gdb.owesStop = false := owesStop_attach s
  have haccounted (hforsakes : ∀ before a, before ++ [a] <+: actions →
      ¬ (start.run before).Forsakes a) (before : List Action) (hbefore : before <+: actions) :
      Accounted start before :=
    accounted_of_not_forsakes hfree (fun a ha => hattached a (hbefore.subset ha))
      fun first a hfirst => hforsakes first a (hfirst.trans hbefore)
  refine ⟨⟨fun hall before a hbefore hforsakes => ?_, haccounted⟩,
    fun hforsakes before a hbefore => ?_⟩
  · have hfirst := hall before ((List.prefix_append before [a]).trans hbefore)
    exact not_accounted_of_forsakes hfirst hforsakes (hall _ hbefore)
  · have hfirst := haccounted hforsakes before ((List.prefix_append before [a]).trans hbefore)
    obtain ⟨hattach, hdetach⟩ :=
      hattached a (hbefore.subset (List.mem_append_right before List.mem_cons_self))
    rw [run_append]
    exact answered_act hfirst.ahead hattach hdetach (hforsakes before a hbefore)

/-- Commands that come while the machine runs, a restart of it, and a request to stop. -/
theorem accounted_while_running :
    let start := (create { machine := Machine.create 16 [] }
      { symbolsAddress := 16, frameCycles := 2 } .standard {} false).attach
    let actions : List Action := [.event (.command (.resume none)), .advance,
      .event (.command (.readMemory 0 1)), .event (.message .restart), .event .interrupt]
    (∀ before, before <+: actions → Accounted start before) ∧
      (start.run actions).replies.toList = [.hex [0], .stop .interrupted] := by
  intro start actions
  have hattached : ∀ a ∈ actions, a ≠ .event .attached ∧ a ≠ .event .detached := by
    simp [actions]
  obtain ⟨hiff, -⟩ := accounted_iff_not_forsakes (create { machine := Machine.create 16 [] }
    { symbolsAddress := 16, frameCycles := 2 } .standard {} false) actions hattached
  refine ⟨hiff.2 fun before a hbefore hforsakes => ?_, by decide +kernel⟩
  have hmem : a ∈ actions := hbefore.subset (List.mem_append_right before List.mem_cons_self)
  cases hforsakes with
  | replaced howed address =>
    cases before with
    | nil => exact absurd howed (by decide +kernel)
    | cons first before =>
      have htail := (List.cons_prefix_cons.1 hbefore).2
      have hmem := htail.subset (List.mem_append_right before List.mem_cons_self)
      simp at hmem
  | missed => simp [actions] at hmem

/-- GDB lets the machine run twice and then asks it to stop: one answer for two commands. -/
theorem continue_unanswered :
    let start := (create { machine := Machine.create 16 [] } { symbolsAddress := 16 } .standard {}
      false).attach
    let actions : List Action := [.event (.command (.resume none)),
      .event (.command (.resume none)), .event .interrupt]
    let s := start.run actions
    s.scheduler.live = true ∧ s.gdb.owesStop = false ∧ start.replies = #[] ∧
      s.replies = #[.stop .interrupted] ∧ actions.countP Action.asks = 2 := by
  decide +kernel

end Session
end RemoteDebugger
