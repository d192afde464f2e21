/-
# Watchpoints are not tripped by the debugger

GDB is told when something changes in a range that it watches.  A session changes memory all
the time, for it puts traps there and takes them away, and both GDB and a restart write it.
None of this trips a watchpoint: as long as memory is changed by the session alone, every
watchpoint has last seen what its range holds (`Session.Current`), and a slice stops the machine
for no other reason than a trap (`Session.watchpoints_untripped`).
-/
import RemoteDebugger.Proofs.Session.View

namespace RemoteDebugger
namespace Session

variable {s t : Session} {image plain : Memory}

/-- Every watchpoint has last seen what its range holds. -/
def Current (s : Session) : Prop :=
  ∀ w ∈ s.gdb.watchpoints, s.range w.address w.length.toNat = .ok w.last

lemma Keeps.range_eq (h : Keeps s t) (hs : s.breakpoints.Aligned) : t.range = s.range := by
  funext address length
  have ht := Breakpoints.extract_plain (h.aligned hs) t.memory address length
  rw [h.plain hs] at ht
  exact ht.trans (Breakpoints.extract_plain hs s.memory address length).symm

namespace Current

/-- Watchpoints may be forgotten. -/
lemma of_subset (h : s.Current) (hrange : t.range = s.range)
    (hsubset : ∀ w ∈ t.gdb.watchpoints, w ∈ s.gdb.watchpoints) : t.Current := by
  intro w hw
  rw [hrange]
  exact h w (hsubset w hw)

lemma of_keeps (h : s.Current) (hs : s.breakpoints.Aligned) (hkeeps : Keeps s t) : t.Current :=
  h.of_subset (hkeeps.range_eq hs) fun _ hw => hkeeps.watchpoints ▸ hw

/-- Watched ranges lie in memory. -/
lemma add_length_le (h : s.Current) {w : Watchpoint} (hw : w ∈ s.gdb.watchpoints) :
    w.address.toNat + w.length.toNat ≤ s.memory.size := by
  have hrange := h w hw
  simp only [range, Memory.extract] at hrange
  split at hrange
  · next hle => exact hle
  · cases hrange

/-- No range has changed. -/
lemma changed?_eq_none (h : s.Current) : s.changed? = none := by
  refine List.find?_eq_none.2 fun w hw => ?_
  rw [hasChanged, look, h w hw]
  simp [ByteArray.beq]

end Current

/-- Watchpoints whose ranges lie in memory see all that there is to see. -/
lemma current_refreshWatchpoints
    (h : ∀ w ∈ s.gdb.watchpoints, w.address.toNat + w.length.toNat ≤ s.memory.size) :
    s.refreshWatchpoints.Current := by
  intro w hw
  obtain ⟨old, hold, rfl⟩ := List.mem_map.1 hw
  have hrange : s.range old.address old.length.toNat =
      .ok (s.breakpoints.overlay old.address.toNat
        (s.memory.bytes.extract old.address.toNat (old.address.toNat + old.length.toNat))) := by
    rw [range, Memory.extract, if_pos (h old hold)]
    rfl
  rw [look, hrange]
  exact hrange

/-! ### Operations that look at the watched ranges -/

lemma current_writeMemory (h : s.Current) (address : UInt32) (data : List UInt8) :
    (s.writeMemory address data).2.Current := by
  simp only [writeMemory]
  split
  · exact h
  · next breakpoints memory hwrite =>
    refine current_refreshWatchpoints fun w hw => ?_
    have hsize : memory.size = s.memory.size := Breakpoints.size_of_write hwrite
    change _ ≤ memory.size
    rw [hsize]
    exact h.add_length_le hw

lemma current_restart (h : s.Current) (hs : s.core.Shows image plain) :
    s.restart.2.Current := by
  have hreset := shows_afterReset hs
  have hsize : s.afterReset.memory.size = s.memory.size :=
    hreset.size_eq.symm.trans hs.size_eq
  have hcurrent : s.afterReset.Current := by
    refine current_refreshWatchpoints fun w hw => ?_
    have hw : w ∈ s.gdb.watchpoints := (keeps_cleared s).watchpoints ▸ hw
    have hle := h.add_length_le hw
    rw [← hsize] at hle
    exact hle
  have hstop := hcurrent.of_keeps hreset.installed.aligned (keeps_afterStop s.afterReset)
  rw [restart_eq]
  split
  · have haligned := (keeps_afterStop s.afterReset).aligned hreset.installed.aligned
    exact hstop.of_keeps haligned (keeps_resume _)
  · exact hstop

lemma current_advance (h : s.Current) (hs : s.breakpoints.Aligned) : s.advance.2.Current := by
  have hlaunched := h.of_keeps hs (keeps_launchSlice s)
  have hcase := sliceCase s
  generalize s.advance.2 = t at hcase
  cases hcase with
  | idle => exact h
  | flying => exact hlaunched
  | ended hrunning status hpoll _ hend =>
    cases hend with
    | trapped =>
      have hkeeps := (keeps_landed s.launchSlice).trans (keeps_halt _ .breakpoint)
      exact hlaunched.of_keeps ((keeps_launchSlice s).aligned hs) hkeeps
    | changed status hstatus w hw =>
      rw [hlaunched.changed?_eq_none] at hw
      cases hw
    | unchanged =>
      exact current_refreshWatchpoints (s := s.launchSlice.landed) fun w hw =>
        hlaunched.add_length_le hw

/-! ### Watchpoints come and go -/

lemma current_insertWatchpoint (h : s.Current) (point : Point) :
    (s.insertWatchpoint point).2.Current := by
  simp only [insertWatchpoint]
  split
  · exact h
  · split
    · exact h
    · next last hlast =>
      intro w hw
      rcases List.mem_append.1 hw with hw | hw
      · exact h w (List.mem_filter.1 hw).1
      · obtain rfl := List.mem_singleton.1 hw
        exact hlast

lemma current_removeWatchpoint (h : s.Current) (point : Point) :
    (s.removeWatchpoint point).Current :=
  h.of_subset rfl fun _ hw => (List.mem_filter.1 hw).1

lemma current_executeSerial (h : s.Current) (hs : s.breakpoints.Aligned)
    (command : SerialCommand) : (s.executeSerial command).2.Current := by
  by_cases hspares : s.SparesCommand command
  · exact h.of_keeps hs (keeps_executeSerial hspares)
  cases command with
  | writeMemory address data => exact current_writeMemory h address data
  | insertPoint point =>
    obtain ⟨kind, address, length⟩ := point
    cases kind with
    | write => exact current_insertWatchpoint h _
    | access => exact current_insertWatchpoint h _
    | _ => exact absurd ⟨by simp, by simp⟩ hspares
  | removePoint point =>
    obtain ⟨kind, address, length⟩ := point
    cases kind with
    | write => exact current_removeWatchpoint h _
    | access => exact current_removeWatchpoint h _
    | _ => exact absurd ⟨by simp, by simp⟩ hspares
  | _ => exact absurd trivial hspares

/-- A session without watchpoints. -/
lemma current_of_forgotten (h : s.gdb.watchpoints = []) : s.Current := by
  intro w hw
  rw [h] at hw
  exact absurd hw List.not_mem_nil

lemma current_act (h : s.Current) (hs : s.core.Shows image plain) (a : Action) :
    (s.act a).Current := by
  have haligned : s.breakpoints.Aligned := hs.installed.aligned
  by_cases hspares : s.Spares a
  · exact h.of_keeps haligned (keeps_act hspares)
  cases a with
  | event event =>
    cases event with
    | message message =>
      by_cases hrestart : message = .restart
      · subst hrestart
        exact current_restart h hs
      · exact h.of_keeps haligned (keeps_handleMessage s hrestart)
    | attached =>
      have hforgotten : Current { s with gdb := { attached := true }, started := true } :=
        current_of_forgotten rfl
      exact hforgotten.of_keeps haligned (keeps_halt _ .attached)
    | command command =>
      refine handleSerial_of_execute (fun _ _ ht => ht) (fun _ _ ht => ht) (fun _ _ => ?_)
        fun _ => current_executeSerial h haligned command
      exact current_executeSerial (s := s.setOwesStop true) h haligned command
    | detached =>
      change s.detach.2.Current
      simp only [detach]
      split
      · have hforgotten : Current { s with gdb := {} } := current_of_forgotten rfl
        exact hforgotten.of_keeps haligned (keeps_resume _)
      · exact h
    | _ => exact absurd trivial hspares
  | execute command => exact current_executeSerial h haligned command
  | advance => exact current_advance h haligned
  | _ => exact absurd trivial hspares

/-! ### Runs -/

lemma current_create (scheduler : Scheduler) (config : Config) (disassembler : Disassembler)
    (tapes : Tapes) (connected : Bool) :
    (create scheduler config disassembler tapes connected).Current := by
  refine current_of_forgotten ?_
  simp only [create]
  split
  · rfl
  · rfl

/-- While memory is changed by the session alone, every watchpoint has last seen what is read
from its range, and a slice that stops the machine has come to a trap. -/
theorem watchpoints_untripped (scheduler : Scheduler) (config : Config)
    (disassembler : Disassembler) (tapes : Tapes) (connected : Bool)
    (hsize : scheduler.machine.image.size = scheduler.memory.size) (actions : List Action) :
    let s := (create scheduler config disassembler tapes connected).run actions
    (∀ w ∈ s.gdb.watchpoints,
      s.readMemory w.address w.length.toNat = .ok w.last.data.toList) ∧
    (s.runState = .running → (s.act .advance).runState = .stopped →
      (s.act .advance).gdb.lastStop = .softwareBreak) := by
  intro s
  obtain ⟨hshows, hcurrent⟩ :=
    invariant_run (I := fun s plain => s.core.Shows scheduler.machine.image plain ∧ s.Current)
      (fun s plain a h => ⟨shows_act s plain a h.1, current_act h.2 h.1 a⟩)
      ⟨shows_create scheduler config disassembler tapes connected hsize,
        current_create scheduler config disassembler tapes connected⟩ actions
  refine ⟨fun w hw => ?_, fun hrunning hstopped => ?_⟩
  · rw [readMemory, hcurrent w hw]
    rfl
  · have hlaunched := hcurrent.of_keeps hshows.installed.aligned (keeps_launchSlice _)
    have hcase := sliceCase s
    have hstate := (runState_launchSlice s).trans hrunning
    change s.advance.2.runState = .stopped at hstopped
    change s.advance.2.gdb.lastStop = .softwareBreak
    generalize s.advance.2 = t at hcase hstopped
    cases hcase with
    | idle hidle => exact absurd (hrunning.symm.trans hidle) (by decide)
    | flying => exact absurd (hstate.symm.trans hstopped) (by decide)
    | ended _ status hpoll _ hend =>
      cases hend with
      | trapped => exact congrArg Dialogue.lastStop (dialogue_halt s.launchSlice.landed .breakpoint)
      | changed status hstatus w hw =>
        rw [hlaunched.changed?_eq_none] at hw
        cases hw
      | unchanged => exact absurd (hstate.symm.trans hstopped) (by decide)

/-- A watched range with a breakpoint in it, set, written over and stepped over, and a restart
on top: a slice that is over does not stop the machine until it comes to the trap. -/
theorem watchpoint_untripped_by_breakpoint :
    let scheduler : Scheduler := { machine := Machine.create 16 [] }
    let actions : List Action :=
      [.event .attached, .execute (.insertPoint { kind := .write, address := 2, length := 8 }),
        .event (.message (.setBreakpoint 4)), .execute (.writeMemory 3 [1, 2, 3]),
        .event (.message .restart), .event (.command (.resume none)), .advance]
    let s := (create scheduler { symbolsAddress := 16 } .standard {} false).run actions
    scheduler.machine.image.size = scheduler.memory.size ∧ s.gdb.watchpoints.length = 1 ∧
      s.runState = .running ∧ (s.act .advance).runState = .stopped ∧
      (∀ w ∈ s.gdb.watchpoints,
        s.readMemory w.address w.length.toNat = .ok w.last.data.toList) ∧
      s.readMemory 2 8 = .ok [0, 0, 2, 3, 0, 0, 0, 0] ∧
      (s.act .advance).gdb.lastStop = .softwareBreak := by
  intro scheduler actions s
  have hsize : scheduler.machine.image.size = scheduler.memory.size := rfl
  have hrunning : s.runState = .running := by decide +kernel
  have hstopped : (s.act .advance).runState = .stopped := by decide +kernel
  have huntripped := watchpoints_untripped scheduler { symbolsAddress := 16 } .standard {} false
    hsize actions
  rw [show (create scheduler _ _ _ _).run actions = s from rfl] at huntripped
  obtain ⟨hread, hstop⟩ := huntripped
  exact ⟨hsize, by decide +kernel, hrunning, hstopped, hread, by decide +kernel,
    hstop hrunning hstopped⟩

end Session
end RemoteDebugger
