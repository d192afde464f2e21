/-
# Breakpoints cannot be seen in memory

Over a whole run a session shows one *plain* memory, whatever breakpoints are set and taken
away meanwhile.  Plain memory is not part of a session; it is followed beside the run
(`Session.plainAfter`): a write stores its bytes, a restart brings the image back except
for the words under the breakpoints that are left, and nothing else changes it.

The invariant `Session.Core.Shows` ties plain memory to the state: the traps are in memory,
and memory with the words under them in their places is plain memory.
-/
import RemoteDebugger.Proofs.Session.Action

namespace RemoteDebugger
namespace Session

/-! ### The invariant -/

/-- A session shows a plain memory. -/
structure Core.Shows (c : Core) (image plain : Memory) : Prop where
  /-- The traps are in memory. -/
  installed : c.breakpoints.Installed c.scheduler.memory
  /-- With the words under the traps in their places memory is plain memory. -/
  plain_eq : c.breakpoints.plain c.scheduler.memory = plain
  /-- The image is the one from the start. -/
  image_eq : c.scheduler.machine.image = image
  /-- The image is as long as memory. -/
  size_eq : image.size = c.scheduler.memory.size

variable {s s' : Session} {c c' : Core} {image plain : Memory}

namespace Core.Shows

/-- What is shown depends on the breakpoints, memory and the image. -/
lemma of_contents (h : c.Shows image plain) (hbreakpoints : c'.breakpoints = c.breakpoints)
    (hcontents : c'.scheduler.contents = c.scheduler.contents) : c'.Shows image plain := by
  have hmemory := Scheduler.memory_of_contents hcontents
  have himage := Scheduler.image_of_contents hcontents
  refine ⟨?_, ?_, ?_, ?_⟩
  · rw [hbreakpoints, hmemory]
    exact h.installed
  · rw [hbreakpoints, hmemory]
    exact h.plain_eq
  · rw [himage]
    exact h.image_eq
  · rw [hmemory]
    exact h.size_eq

lemma ran (h : c.Shows image plain) {y : Scheduler} (hran : Ran c.breakpoints c.scheduler y)
    (hbreakpoints : c'.breakpoints = c.breakpoints) (hscheduler : c'.scheduler = y) :
    c'.Shows image plain :=
  h.of_contents hbreakpoints (hscheduler ▸ hran.contents h.installed)

/-- Other breakpoints in other memory that stand for the same plain memory. -/
lemma setBreakpoints (h : s.core.Shows image plain) {t : Breakpoints} {memory plain' : Memory}
    (ht : t.Installed memory) (hplain : t.plain memory = plain')
    (hsize : memory.size = s.memory.size) :
    (s.setBreakpoints t memory).core.Shows image plain' :=
  ⟨ht, hplain, h.image_eq, h.size_eq.trans hsize.symm⟩

end Core.Shows

/-! ### The operations -/

lemma size_of_add {t t' : Breakpoints} {m m' : Memory} {address : UInt32}
    (h : t.add address m = .ok (some (t', m'))) : m'.size = m.size := by
  obtain ⟨-, -, -, -, -, rfl⟩ := Breakpoints.add_eq_some h
  exact Memory.size_setWord ..

lemma size_of_remove {t t' : Breakpoints} {m m' : Memory} {address : UInt32}
    (h : t.remove address m = .ok (t', m')) : m'.size = m.size := by
  obtain ⟨-, -, -, rfl⟩ := Breakpoints.remove_eq_ok h
  exact Memory.size_setWord ..

lemma shows_add (h : s.core.Shows image plain) {t : Breakpoints} {memory : Memory}
    {address : UInt32} (hadd : s.breakpoints.add address s.memory = .ok (some (t, memory))) :
    (s.setBreakpoints t memory).core.Shows image plain :=
  h.setBreakpoints (h.installed.add hadd)
    ((Breakpoints.plain_of_add h.installed.aligned hadd).trans h.plain_eq) (size_of_add hadd)

lemma shows_remove (h : s.core.Shows image plain) {t : Breakpoints} {memory : Memory}
    {address : UInt32} (hremove : s.breakpoints.remove address s.memory = .ok (t, memory)) :
    (s.setBreakpoints t memory).core.Shows image plain :=
  h.setBreakpoints (h.installed.remove hremove)
    ((Breakpoints.plain_of_remove h.installed.aligned hremove).trans h.plain_eq)
    (size_of_remove hremove)

lemma shows_settle (h : s.core.Shows image plain) : s.settle.core.Shows image plain :=
  h.ran (ran_settle s.breakpoints s) rfl rfl

lemma shows_clearNextBreakpoint (h : s.core.Shows image plain) :
    s.clearNextBreakpoint.core.Shows image plain := by
  simp only [clearNextBreakpoint]
  split
  · exact h
  · split
    · next hremove => exact (shows_remove h hremove).of_contents rfl rfl
    · exact h.of_contents rfl rfl

lemma shows_cleared (h : s.core.Shows image plain) :
    s.settle.clearNextBreakpoint.core.Shows image plain :=
  shows_clearNextBreakpoint (shows_settle h)

lemma shows_halt (h : s.core.Shows image plain) (cause : StopCause) :
    (s.halt cause).core.Shows image plain := by
  rw [core_halt]
  exact shows_cleared h

lemma shows_resume (h : s.core.Shows image plain) : s.resume.2.core.Shows image plain := by
  obtain ⟨y, hran, hcore | ⟨-, hcore⟩⟩ := resume_cases s
  · rw [hcore]
    exact h.ran hran rfl rfl
  · rw [hcore]
    exact h.ran hran rfl rfl

lemma shows_step (h : s.core.Shows image plain) : s.step.2.core.Shows image plain := by
  obtain ⟨y, hran, hcore⟩ := core_step s
  rw [hcore]
  exact (shows_cleared h).ran hran rfl rfl

lemma shows_next (h : s.core.Shows image plain) : s.next.2.core.Shows image plain := by
  have hsettle := shows_settle h
  generalize hnext : s.next.2 = t
  cases hnext ▸ nextCase s with
  | unreadable => exact hsettle
  | known => exact shows_resume hsettle
  | refused => exact hsettle
  | called _ _ _ _ t memory hadd =>
    exact shows_resume ((shows_add hsettle hadd).of_contents rfl rfl)
  | single => exact shows_step hsettle

lemma shows_advance (h : s.core.Shows image plain) : s.advance.2.core.Shows image plain := by
  rcases advance_cases s with hstay | ⟨-, hcase⟩
  · rw [hstay]
    exact h
  · generalize s.advance.2 = t at hcase
    cases hcase with
    | flying _ y hran ht =>
      rw [ht]
      exact h.ran hran rfl rfl
    | landed _ y hran ht =>
      rw [ht]
      exact h.ran hran rfl rfl
    | stopped _ y hran ht cause =>
      refine shows_halt ?_ cause
      rw [ht]
      exact h.ran hran rfl rfl

lemma shows_setBreakpoint (h : s.core.Shows image plain) (address : UInt32) :
    (s.setBreakpoint address).2.core.Shows image plain := by
  simp only [setBreakpoint]
  split
  · exact h.of_contents rfl rfl
  · split
    · exact h
    · exact h
    · next hadd => exact shows_add h hadd

lemma shows_unsetBreakpoint (h : s.core.Shows image plain) (address : UInt32) :
    (s.unsetBreakpoint address).2.core.Shows image plain := by
  simp only [unsetBreakpoint]
  split
  · exact h
  · next hremove =>
    have hshows := shows_remove h hremove
    dsimp only
    split
    · exact hshows.of_contents rfl rfl
    · exact hshows

/-- At the stop of a restart the session shows the image, but for the words under
breakpoints. -/
lemma shows_afterReset (h : s.core.Shows image plain) :
    s.afterReset.core.Shows image (plain.keepWords s.afterReset.breakpoints.saved.keys image) := by
  have hcleared := shows_cleared h
  have himage : s.settle.clearNextBreakpoint.scheduler.machine.image = image := hcleared.image_eq
  change Core.Shows
    { s.settle.clearNextBreakpoint.core with
      scheduler := s.settle.clearNextBreakpoint.scheduler.reset.setMemory
        (s.settle.clearNextBreakpoint.breakpoints.reapply
          s.settle.clearNextBreakpoint.scheduler.machine.image) } image
    (plain.keepWords s.settle.clearNextBreakpoint.breakpoints.saved.keys image)
  generalize s.settle.clearNextBreakpoint = cleared at hcleared himage
  rw [himage]
  refine ⟨?_, ?_, himage, (Breakpoints.size_reapply ..).symm⟩
  · refine Breakpoints.installed_reapply hcleared.installed.aligned fun key hkey => ?_
    rw [hcleared.size_eq]
    exact hcleared.installed.add_four_le hkey
  · rw [← hcleared.plain_eq]
    exact Breakpoints.plain_reapply hcleared.installed hcleared.size_eq

lemma breakpoints_resume (s : Session) : s.resume.2.breakpoints = s.breakpoints := by
  obtain ⟨y, -, hcore | ⟨-, hcore⟩⟩ := resume_cases s
  · exact breakpoints_of_core hcore
  · exact breakpoints_of_core hcore

/-- After a restart the session shows the image, but for the words under breakpoints. -/
lemma shows_restart (h : s.core.Shows image plain) :
    s.restart.2.core.Shows image
      (plain.keepWords s.restart.2.breakpoints.saved.keys image) := by
  have hreset := shows_afterReset h
  have ht : s.afterReset.afterStop.core.Shows image
      (plain.keepWords s.afterReset.afterStop.breakpoints.saved.keys image) := by
    rw [breakpoints_of_core (core_afterStop s.afterReset), core_afterStop]
    exact hreset
  -- the traps are put into the image before the machine may run on
  rw [restart_eq]
  split
  · rw [breakpoints_resume]
    exact shows_resume ht
  · exact ht

/-! ### Actions -/

/-- What an action does to plain memory: a write that succeeds stores its bytes, a restart
brings back the image but for the words under the breakpoints that are left, and nothing
else does anything. -/
def plainAfter (s : Session) (plain : Memory) (a : Action) : Memory :=
  match s.operation? a with
  | some (.write address data) =>
    match (s.writeMemory address data).1 with
    | .ok () => { bytes := Memory.store plain.bytes address.toNat data }
    | .error _ => plain
  | some .restart =>
    plain.keepWords (s.act a).breakpoints.saved.keys s.scheduler.machine.image
  | _ => plain

lemma Stirred.shows (h : Stirred s s') (hs : s.core.Shows image plain) :
    s'.core.Shows image plain :=
  hs.of_contents h.breakpoints h.scheduler.contents

/-- A write goes as far as breakpoints and memory are concerned. -/
lemma Stirred.writeMemory_fst (h : Stirred s s') (address : UInt32) (data : List UInt8) :
    (s'.writeMemory address data).1 = (s.writeMemory address data).1 := by
  simp only [writeMemory]
  rw [h.breakpoints, h.memory]
  split
  · rfl
  · rfl

lemma shows_writeMemory (h : s.core.Shows image plain) (address : UInt32) (data : List UInt8) :
    (s.writeMemory address data).2.core.Shows image
      (match (s.writeMemory address data).1 with
      | .ok () => { bytes := Memory.store plain.bytes address.toNat data }
      | .error _ => plain) := by
  simp only [writeMemory]
  rcases hwrite : s.breakpoints.write address data s.memory with fault | ⟨t, memory⟩
  · exact h
  · have hplain : plain.write address data = .ok (t.plain memory) := by
      rw [← h.plain_eq]
      exact Breakpoints.plain_of_write h.installed.aligned hwrite
    simp only [Memory.write] at hplain
    split at hplain
    · dsimp only
      rw [core_refreshWatchpoints]
      exact h.setBreakpoints (h.installed.write hwrite) (Except.ok.inj hplain).symm
        (Breakpoints.size_of_write hwrite)
    · cases hplain

/-- What one action keeps. -/
theorem shows_act (s : Session) (plain : Memory) (a : Action) (h : s.core.Shows image plain) :
    (s.act a).core.Shows image (s.plainAfter plain a) := by
  obtain ⟨s', hstirred, hcore⟩ := follows_act s a
  -- writes to registers and interrupts come before the operation, and show the same
  have hs' := hstirred.shows h
  simp only [plainAfter]
  rw [show s.scheduler.machine.image = image from h.image_eq,
    show (s.act a).breakpoints = (s.act a).core.breakpoints from rfl, hcore]
  cases s.operation? a with
  | none => exact hs'
  | some op =>
    cases op with
    | halt cause => exact shows_halt hs' cause
    | resume => exact shows_resume hs'
    | step => exact shows_step hs'
    | next => exact shows_next hs'
    | restart => exact shows_restart hs'
    | advance => exact shows_advance hs'
    | setBreakpoint address => exact shows_setBreakpoint hs' address
    | unsetBreakpoint address => exact shows_unsetBreakpoint hs' address
    | write address data =>
      dsimp only
      rw [← hstirred.writeMemory_fst]
      exact shows_writeMemory hs' address data

/-! ### Runs -/

lemma shows_create (scheduler : Scheduler) (config : Config) (disassembler : Disassembler)
    (tapes : Tapes) (connected : Bool)
    (hsize : scheduler.machine.image.size = scheduler.memory.size) :
    (create scheduler config disassembler tapes connected).core.Shows
      scheduler.machine.image scheduler.memory := by
  rw [core_create]
  exact ⟨Breakpoints.installed_empty _, rfl, rfl, hsize⟩

/-- What a run shows, from the start on. -/
lemma shows_run (scheduler : Scheduler) (config : Config) (disassembler : Disassembler)
    (tapes : Tapes) (connected : Bool)
    (hsize : scheduler.machine.image.size = scheduler.memory.size) (actions : List Action) :
    ((create scheduler config disassembler tapes connected).run actions).core.Shows
      scheduler.machine.image
      (follow plainAfter (create scheduler config disassembler tapes connected) scheduler.memory
        actions) :=
  invariant_run (I := fun s plain => s.core.Shows scheduler.machine.image plain)
    (fun s plain a => shows_act s plain a)
    (shows_create scheduler config disassembler tapes connected hsize) actions

lemma readMemory_of_aligned (h : s.breakpoints.Aligned) (address : UInt32) (length : Nat) :
    s.readMemory address length = (s.breakpoints.plain s.memory).read address length :=
  congrArg _ (Breakpoints.extract_plain h s.memory address length)

lemma readMemory_eq (h : s.core.Shows image plain) (address : UInt32) (length : Nat) :
    s.readMemory address length = plain.read address length := by
  rw [← h.plain_eq]
  exact readMemory_of_aligned h.installed.aligned address length

lemma mem_keys_unsetBreakpoint {address : UInt32} (h : address ∈ s.breakpoints.saved.keys)
    (key : UInt32) :
    key ∈ (s.unsetBreakpoint address).2.breakpoints.saved.keys ↔
      key ≠ address ∧ key ∈ s.breakpoints.saved.keys := by
  obtain ⟨t, memory, hremove⟩ := Breakpoints.exists_remove h s.memory
  have hbreakpoints : (s.unsetBreakpoint address).2.breakpoints = t := by
    simp only [unsetBreakpoint]
    rw [hremove]
    dsimp only
    split
    · rfl
    · rfl
  obtain ⟨-, -, rfl, -⟩ := Breakpoints.remove_eq_ok hremove
  rw [hbreakpoints]
  exact Breakpoints.mem_keys_erase

/-- Taking all breakpoints away, one after another, brings plain memory to light. -/
lemma run_unsetBreakpoint (h : s.core.Shows image plain) {order : List UInt32}
    (hnodup : order.Nodup) (hmem : ∀ key, key ∈ s.breakpoints.saved.keys ↔ key ∈ order) :
    let t := s.run (order.map fun key => .event (.message (.unsetBreakpoint key)))
    t.breakpoints = {} ∧ t.memory = plain := by
  induction order generalizing s with
  | nil =>
    have hempty : s.breakpoints = {} :=
      congrArg Breakpoints.mk
        (Directory.eq_empty_of_keys fun key hkey => by simpa using (hmem key).1 hkey)
    refine ⟨hempty, ?_⟩
    have hplain : s.breakpoints.plain s.memory = plain := h.plain_eq
    rw [← hplain, List.map_nil, run_nil, hempty]
    rfl
  | cons address rest ih =>
    obtain ⟨hnotin, hrest⟩ := List.nodup_cons.1 hnodup
    refine ih (s := (s.unsetBreakpoint address).2) (shows_unsetBreakpoint h address) hrest
      fun key => ?_
    rw [mem_keys_unsetBreakpoint ((hmem address).2 List.mem_cons_self), hmem, List.mem_cons]
    constructor
    · rintro ⟨hne, heq | hin⟩
      · exact absurd heq hne
      · exact hin
    · intro hin
      exact ⟨fun heq => hnotin (heq ▸ hin), Or.inr hin⟩

/-- Breakpoints cannot be seen in memory, whatever has happened to a session.  Each of them
is a trap in a word of memory; what is read, inside of memory or beyond, is what is read
from plain memory; and once all breakpoints have been taken away, in any order, memory is
plain memory. -/
theorem breakpoints_invisible (scheduler : Scheduler) (config : Config)
    (disassembler : Disassembler) (tapes : Tapes) (connected : Bool)
    (hsize : scheduler.machine.image.size = scheduler.memory.size) (actions : List Action) :
    let start := create scheduler config disassembler tapes connected
    let s := start.run actions
    let plain := follow plainAfter start scheduler.memory actions
    (∀ address, s.breakpoints.contains address = true →
      address.toNat % 4 = 0 ∧ address.toNat + 4 ≤ s.memory.size ∧
        s.memory.word? address = some trapWord) ∧
    (∀ address length, s.readMemory address length = plain.read address length) ∧
    ∀ order : List UInt32, order.Perm s.breakpoints.saved.keys →
      let t := s.run (order.map fun key => .event (.message (.unsetBreakpoint key)))
      t.breakpoints = {} ∧ t.memory = plain := by
  intro start s plain
  have h : s.core.Shows scheduler.machine.image plain :=
    invariant_run (I := fun s plain => s.core.Shows scheduler.machine.image plain)
      (fun s plain a => shows_act s plain a)
      (shows_create scheduler config disassembler tapes connected hsize) actions
  refine ⟨fun address hcontains => ?_, readMemory_eq h, fun order hperm => ?_⟩
  · have hkey := Breakpoints.contains_iff.1 hcontains
    exact ⟨h.installed.aligned address hkey, h.installed.add_four_le hkey,
      h.installed.trapped address hkey⟩
  · refine run_unsetBreakpoint h ?_ fun key => hperm.mem_iff.symm
    exact hperm.nodup_iff.2 (Directory.nodup_keys _)

/-- A write that ends within the word of a breakpoint, and a restart after it: the bytes of
the word stay, those before it go. -/
theorem breakpoint_invisible_after_restart :
    let scheduler : Scheduler := { machine := Machine.create 16 [] }
    let s := (create scheduler { symbolsAddress := 16 } .standard {} false).run
      [.event (.message (.setBreakpoint 8)), .execute (.writeMemory 6 [1, 2, 3, 4]),
        .event (.message .restart)]
    scheduler.machine.image.size = scheduler.memory.size ∧
      s.memory.word? 8 = some trapWord ∧ s.readMemory 4 8 = .ok [0, 0, 0, 0, 3, 4, 0, 0] := by
  intro scheduler s
  have hsize : scheduler.machine.image.size = scheduler.memory.size := rfl
  obtain ⟨htraps, hread, -⟩ := breakpoints_invisible scheduler { symbolsAddress := 16 } .standard
    {} false hsize [.event (.message (.setBreakpoint 8)),
      .execute (.writeMemory 6 [1, 2, 3, 4]), .event (.message .restart)]
  refine ⟨hsize, (htraps 8 (by decide +kernel)).2.2, (hread 4 8).trans ?_⟩
  decide +kernel

end Session
end RemoteDebugger
