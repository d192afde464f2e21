/-
# What holds of every session

Three facts that no run of a session changes (`Session.Core.Orderly`): a turn of the worker
that was cut short by waiting has left a machine that waits, a stopped session has no slice
in flight, and a breakpoint that is to go away is there.
-/
import RemoteDebugger.Proofs.Session.Action

namespace RemoteDebugger
namespace Session

/-- A core in which nothing is left over. -/
structure Core.Orderly (c : Core) : Prop where
  /-- A turn that was cut short by waiting has left a machine that waits. -/
  honest : c.scheduler.Honest
  /-- A stopped session has no slice in flight. -/
  landed (h : c.runState = .stopped) : c.sliceInFlight = false
  /-- The breakpoint that is to go away is there. -/
  promised (address : UInt32) (h : c.nextBreakpoint = some address) :
    c.breakpoints.contains address = true

variable {s s' : Session} {c : Core}

/-! ### The operations -/

lemma orderly_settle (h : s.core.Orderly) : s.settle.core.Orderly :=
  ⟨(ran_settle s.breakpoints s).honest h.honest, fun _ => rfl, h.promised⟩

lemma orderly_clearNextBreakpoint (h : s.core.Orderly) : s.clearNextBreakpoint.core.Orderly := by
  simp only [clearNextBreakpoint]
  split
  · exact h
  · split
    · exact ⟨h.honest, h.landed, fun _ hnext => by cases hnext⟩
    · exact ⟨h.honest, h.landed, fun _ hnext => by cases hnext⟩

lemma orderly_cleared (h : s.core.Orderly) : s.settle.clearNextBreakpoint.core.Orderly :=
  orderly_clearNextBreakpoint (orderly_settle h)

lemma orderly_halt (h : s.core.Orderly) (cause : StopCause) : (s.halt cause).core.Orderly := by
  rw [core_halt]
  exact orderly_cleared h

lemma orderly_resume (h : s.core.Orderly) : s.resume.2.core.Orderly := by
  obtain ⟨y, hran, hcore | ⟨-, hcore⟩⟩ := resume_cases s
  · rw [hcore]
    exact ⟨hran.honest h.honest, fun hstopped => (by cases hstopped), h.promised⟩
  · rw [hcore]
    exact ⟨hran.honest h.honest, h.landed, h.promised⟩

lemma orderly_step (h : s.core.Orderly) : s.step.2.core.Orderly := by
  obtain ⟨y, hran, hcore⟩ := core_step s
  have hcleared := orderly_cleared h
  rw [hcore]
  exact ⟨hran.honest hcleared.honest, hcleared.landed, hcleared.promised⟩

lemma orderly_next (h : s.core.Orderly) : s.next.2.core.Orderly := by
  have hsettle := orderly_settle h
  generalize hnext : s.next.2 = t
  cases hnext ▸ nextCase s with
  | unreadable => exact hsettle
  | known => exact orderly_resume hsettle
  | refused => exact hsettle
  | called _ _ _ _ t memory hadd =>
    refine orderly_resume ⟨hsettle.honest, hsettle.landed, fun address haddress => ?_⟩
    exact (Breakpoints.contains_add hadd address).2 (Or.inl (Option.some.inj haddress).symm)
  | single => exact orderly_step hsettle

lemma orderly_restart (h : s.core.Orderly) : s.restart.2.core.Orderly := by
  obtain ⟨t, hcore, hrestart⟩ := restart_cases s
  have hcleared := orderly_cleared h
  have ht : t.core.Orderly := by
    rw [hcore]
    exact ⟨fun hstatus => (by cases hstatus), hcleared.landed, hcleared.promised⟩
  rw [hrestart]
  split
  · exact orderly_resume ht
  · exact ht

lemma orderly_advance (h : s.core.Orderly) : s.advance.2.core.Orderly := by
  rcases advance_cases s with hstay | ⟨hrunning, hcase⟩
  · rw [hstay]
    exact h
  have hstate : s.core.runState = .running := eq_of_beq hrunning
  generalize s.advance.2 = t at hcase
  cases hcase with
  | flying _ y hran ht =>
    rw [ht]
    refine ⟨hran.honest h.honest, fun hstopped => ?_, h.promised⟩
    exact absurd (hstate.symm.trans hstopped) (by decide)
  | landed _ y hran ht =>
    rw [ht]
    exact ⟨hran.honest h.honest, fun _ => rfl, h.promised⟩
  | stopped _ y hran ht cause =>
    refine orderly_halt ?_ cause
    rw [ht]
    exact ⟨hran.honest h.honest, fun _ => rfl, h.promised⟩

lemma orderly_setBreakpoint (h : s.core.Orderly) (address : UInt32) :
    (s.setBreakpoint address).2.core.Orderly := by
  simp only [setBreakpoint]
  split
  · exact ⟨h.honest, h.landed, fun _ hnext => by cases hnext⟩
  · split
    · exact h
    · exact h
    · next hadd =>
      refine ⟨h.honest, h.landed, fun key hkey => ?_⟩
      exact (Breakpoints.contains_add hadd key).2 (Or.inr (h.promised key hkey))

lemma orderly_unsetBreakpoint (h : s.core.Orderly) (address : UInt32) :
    (s.unsetBreakpoint address).2.core.Orderly := by
  simp only [unsetBreakpoint]
  split
  · exact h
  · next hremove =>
    dsimp only
    split
    · exact ⟨h.honest, h.landed, fun _ hnext => by cases hnext⟩
    · next hnext =>
      refine ⟨h.honest, h.landed, fun key hkey => ?_⟩
      refine (Breakpoints.contains_remove hremove key).2 ⟨?_, h.promised key hkey⟩
      rintro rfl
      exact hnext hkey

lemma orderly_writeMemory (h : s.core.Orderly) (address : UInt32) (data : List UInt8) :
    (s.writeMemory address data).2.core.Orderly := by
  simp only [writeMemory]
  split
  · exact h
  · next hwrite =>
    obtain ⟨written, -, rfl, -⟩ := Breakpoints.write_eq_ok hwrite
    dsimp only
    rw [core_refreshWatchpoints]
    refine ⟨h.honest, h.landed, fun key hkey => ?_⟩
    refine Breakpoints.contains_iff.2 ?_
    change key ∈ (s.breakpoints.saved.map _).keys
    rw [Directory.keys_map]
    exact Breakpoints.contains_iff.1 (h.promised key hkey)

/-! ### Actions and runs -/

lemma Disturbed.honest {x y : Scheduler} (h : Disturbed x y) (hx : x.Honest) : y.Honest := by
  cases h with
  | interrupt irq => exact Scheduler.honest_interrupt hx irq
  | _ => exact hx

lemma Stirred.orderly (h : Stirred s s') (hs : s.core.Orderly) : s'.core.Orderly := by
  rw [h.core]
  exact ⟨h.scheduler.honest hs.honest, hs.landed, hs.promised⟩

lemma orderly_operate (op : Operation) (h : s.core.Orderly) : (s.operate op).core.Orderly := by
  cases op with
  | halt cause => exact orderly_halt h cause
  | resume => exact orderly_resume h
  | step => exact orderly_step h
  | next => exact orderly_next h
  | restart => exact orderly_restart h
  | advance => exact orderly_advance h
  | setBreakpoint address => exact orderly_setBreakpoint h address
  | unsetBreakpoint address => exact orderly_unsetBreakpoint h address
  | write address data => exact orderly_writeMemory h address data

lemma orderly_act (h : s.core.Orderly) (a : Action) : (s.act a).core.Orderly :=
  core_act (I := Core.Orderly) Stirred.orderly orderly_operate h a

lemma orderly_run (h : s.core.Orderly) (actions : List Action) : (s.run actions).core.Orderly :=
  core_run (I := Core.Orderly) (fun a hs => orderly_act hs a) h actions

/-- A session at its start is in order if its scheduler is. -/
lemma orderly_create {scheduler : Scheduler} (h : scheduler.Honest) (config : Config)
    (disassembler : Disassembler) (tapes : Tapes) (connected : Bool) :
    (create scheduler config disassembler tapes connected).core.Orderly := by
  rw [core_create]
  exact ⟨h, fun _ => rfl, fun _ hnext => by cases hnext⟩

end Session
end RemoteDebugger
