/-
# Breakpoints of a *next*

A *next* over a call puts a breakpoint up that no user has asked for, and the next stop is to
take it away.  So a stopped session should have the breakpoints of its user and no others
(`Session.UserOnly`).  Which those are is followed beside the run (`Session.userAfter`).

The invariant that carries this is `Session.Core.Tidy`: at most one breakpoint is not the
user's, the session knows which, and a stopped session has none.  Every action keeps it,
with one exception.  A *next* gives up the slice that is in flight but not the breakpoint
of the *next* before it; if it then does not step, that breakpoint is stranded
(`Session.Strands`): the session stops with it, or puts up another one and forgets it.
-/
import Mathlib.Data.Finset.Erase
import Mathlib.Data.Finset.Insert
import RemoteDebugger.Proofs.Session.Action

namespace RemoteDebugger
namespace Session

/-! ### The user's breakpoints -/

/-- What an action does to the set of the user's breakpoints: setting one that succeeds adds
it, taking one away that succeeds removes it, and nothing else does anything. -/
def userAfter (s : Session) (user : Finset UInt32) (a : Action) : Finset UInt32 :=
  match s.operation? a with
  | some (.setBreakpoint address) =>
    match (s.setBreakpoint address).1 with
    | .ok _ => insert address user
    | .error _ => user
  | some (.unsetBreakpoint address) =>
    match (s.unsetBreakpoint address).1 with
    | .ok () => user.erase address
    | .error _ => user
  | _ => user

/-- If the session is stopped, its breakpoints are the user's, and none is to go away. -/
def UserOnly (s : Session) (user : Finset UInt32) : Prop :=
  s.runState = .stopped →
    (∀ address, s.breakpoints.contains address = true ↔ address ∈ user) ∧ s.nextBreakpoint = none

/-- A *next* now would strand a breakpoint: there is one that is to go away, and no step
would be made, as the word at the program counter cannot be read or is a call behind which
there is no breakpoint. -/
def Strands (s : Session) : Prop :=
  s.nextBreakpoint.isSome = true ∧
    match s.currentWord with
    | .error _ => True
    | .ok word =>
      Instruction.isCall word = true ∧ s.breakpoints.contains (s.pc + 4) = false

/-! ### The invariant -/

/-- The breakpoints are the user's and the one that is to go away. -/
structure Core.Kept (c : Core) (user : Finset UInt32) : Prop where
  /-- These are all. -/
  contains_iff (address : UInt32) : c.breakpoints.contains address = true ↔
    address ∈ user ∨ c.nextBreakpoint = some address
  /-- The one that is to go away is not the user's. -/
  next_notMem (address : UInt32) (h : c.nextBreakpoint = some address) : address ∉ user

/-- The breakpoints are kept, and when the session is stopped none is to go away. -/
structure Core.Tidy (c : Core) (user : Finset UInt32) : Prop extends c.Kept user where
  /-- A stopped session has no breakpoint of a *next*. -/
  next_eq_none (h : c.runState = .stopped) : c.nextBreakpoint = none

variable {s s' : Session} {c c' : Core} {user : Finset UInt32}

namespace Core

lemma Kept.congr (h : c.Kept user) (hbreakpoints : c'.breakpoints = c.breakpoints)
    (hnext : c'.nextBreakpoint = c.nextBreakpoint) : c'.Kept user where
  contains_iff address := by
    rw [hbreakpoints, hnext]
    exact h.contains_iff address
  next_notMem address haddress := h.next_notMem address (hnext ▸ haddress)

lemma Tidy.congr (h : c.Tidy user) (hbreakpoints : c'.breakpoints = c.breakpoints)
    (hnext : c'.nextBreakpoint = c.nextBreakpoint) (hstate : c'.runState = c.runState) :
    c'.Tidy user :=
  ⟨h.toKept.congr hbreakpoints hnext, fun hstopped => hnext ▸ h.next_eq_none (hstate ▸ hstopped)⟩

lemma Kept.tidy_of_running (h : c.Kept user) (hrunning : c.runState = .running) : c.Tidy user :=
  ⟨h, fun hstopped => absurd (hrunning.symm.trans hstopped) (by decide)⟩

lemma Kept.tidy_of_none (h : c.Kept user) (hnone : c.nextBreakpoint = none) : c.Tidy user :=
  ⟨h, fun _ => hnone⟩

/-- Breakpoints that are the user's and no others. -/
lemma kept_of_none (hnone : c.nextBreakpoint = none)
    (h : ∀ address, c.breakpoints.contains address = true ↔ address ∈ user) : c.Kept user where
  contains_iff address := by
    rw [h, hnone]
    exact (or_iff_left (by simp)).symm
  next_notMem address haddress := absurd (hnone.symm.trans haddress) (by simp)

lemma Kept.contains_iff_of_none (h : c.Kept user) (hnone : c.nextBreakpoint = none)
    (address : UInt32) : c.breakpoints.contains address = true ↔ address ∈ user := by
  rw [h.contains_iff, hnone]
  exact or_iff_left (by simp)

lemma Tidy.userOnly (h : s.core.Tidy user) : s.UserOnly user := by
  intro hstopped
  have hnone := h.next_eq_none hstopped
  exact ⟨h.contains_iff_of_none hnone, hnone⟩

end Core

/-! ### The operations -/

/-- The breakpoint that is to go away is there to be taken away. -/
lemma kept_clearNextBreakpoint (h : s.core.Kept user) :
    s.clearNextBreakpoint.core.Kept user ∧ s.clearNextBreakpoint.nextBreakpoint = none := by
  simp only [clearNextBreakpoint]
  split
  · next hnone => exact ⟨h, hnone⟩
  · next address hnext =>
    have hcontains : s.breakpoints.contains address = true :=
      (h.contains_iff address).2 (Or.inr hnext)
    split
    · next t memory hremove =>
      refine ⟨Core.kept_of_none rfl fun key => ?_, rfl⟩
      change t.contains key = true ↔ key ∈ user
      have hkey : s.breakpoints.contains key = true ↔ _ := h.contains_iff key
      rw [Breakpoints.contains_remove hremove, hkey]
      constructor
      · rintro ⟨hne, hin | hkey⟩
        · exact hin
        · exact absurd (Option.some.inj (hkey.symm.trans hnext)) hne
      · intro hin
        refine ⟨?_, Or.inl hin⟩
        rintro rfl
        exact h.next_notMem key hnext hin
    · next hremove =>
      obtain ⟨t, memory, hok⟩ :=
        Breakpoints.exists_remove (Breakpoints.contains_iff.1 hcontains) s.memory
      rw [hok] at hremove
      cases hremove

lemma kept_cleared (h : s.core.Kept user) :
    s.settle.clearNextBreakpoint.core.Kept user ∧
      s.settle.clearNextBreakpoint.nextBreakpoint = none :=
  kept_clearNextBreakpoint (s := s.settle) (h.congr rfl rfl)

lemma tidy_halt (h : s.core.Kept user) (cause : StopCause) : (s.halt cause).core.Tidy user := by
  rw [core_halt]
  exact (kept_cleared h).1.tidy_of_none (kept_cleared h).2

/-- A machine that has not been shut down runs after it has been told to. -/
lemma tidy_resume (h : s.core.Kept user) (hlive : s.resume.2.scheduler.live = true) :
    s.resume.2.core.Tidy user := by
  obtain ⟨y, -, hcore | ⟨hdead, hcore⟩⟩ := resume_cases s
  · rw [hcore]
    exact Core.Kept.tidy_of_running (h.congr rfl rfl) rfl
  · rw [scheduler_of_core hcore, hdead] at hlive
    cases hlive

lemma tidy_step (h : s.core.Kept user) : s.step.2.core.Tidy user := by
  obtain ⟨y, -, hcore⟩ := core_step s
  obtain ⟨hkept, hnone⟩ := kept_cleared h
  rw [hcore]
  exact Core.Kept.tidy_of_none (hkept.congr rfl rfl) hnone

/-- A breakpoint behind a call, put up beside those that are there. -/
lemma kept_over {breakpoints : Breakpoints} {memory : Memory} {address : UInt32}
    (h : ∀ key, s.breakpoints.contains key = true ↔ key ∈ user)
    (hadd : s.breakpoints.add address s.memory = .ok (some (breakpoints, memory)))
    (hnew : s.breakpoints.contains address = false) :
    ({ s with nextBreakpoint := some address }.setBreakpoints breakpoints memory).core.Kept
      user where
  contains_iff key := by
    refine (Breakpoints.contains_add hadd key).trans ?_
    rw [h, or_comm, eq_comm]
    exact or_congr_right (Option.some.injEq address key ▸ Iff.rfl)
  next_notMem key hkey := by
    rw [← h, ← Option.some.inj hkey, Bool.not_eq_true]
    exact hnew

lemma strands_settle (s : Session) : s.settle.Strands ↔ s.Strands := by
  have hmachine : s.settle.scheduler.machine = s.scheduler.machine := by
    simp only [settle]
    split
    · rfl
    · rfl
  simp only [Strands, currentWord, pc, memory, Scheduler.pc, Scheduler.memory]
  rw [hmachine]
  exact Iff.rfl

/-- What keeps a *next* from stranding a breakpoint when there is no step. -/
lemma next_eq_none_of_not_strands (h : ¬ s.Strands)
    (hword : match s.currentWord with
      | .error _ => True
      | .ok word =>
        Instruction.isCall word = true ∧ s.breakpoints.contains (s.pc + 4) = false) :
    s.nextBreakpoint = none := by
  rw [← Option.not_isSome_iff_eq_none]
  exact fun hsome => h ⟨hsome, hword⟩

lemma tidy_nextCase {t : Session} (hcase : NextCase s t) (h : s.core.Kept user)
    (hstrands : ¬ s.Strands) (hlive : t.scheduler.live = true) : t.core.Tidy user := by
  cases hcase with
  | unreadable fault hword =>
    exact h.tidy_of_none (next_eq_none_of_not_strands hstrands (by rw [hword]; trivial))
  | known => exact tidy_resume h hlive
  | refused word hword hcall hnew =>
    exact h.tidy_of_none (next_eq_none_of_not_strands hstrands (by rw [hword]; exact ⟨hcall, hnew⟩))
  | called word hword hcall hnew breakpoints memory hadd =>
    have hnone := next_eq_none_of_not_strands hstrands (by rw [hword]; exact ⟨hcall, hnew⟩)
    exact tidy_resume (kept_over (h.contains_iff_of_none hnone) hadd hnew) hlive
  | single => exact tidy_step h

lemma tidy_next (h : s.core.Kept user) (hstrands : ¬ s.Strands)
    (hlive : s.next.2.scheduler.live = true) : s.next.2.core.Tidy user :=
  tidy_nextCase (nextCase s) (h.congr rfl rfl) ((strands_settle s).not.2 hstrands) hlive

/-- A stranded breakpoint is seen at once or after a stop. -/
lemma not_userOnly_of_nextCase {t : Session} (hcase : NextCase s t)
    (hstopped : s.runState = .stopped) (h : s.core.Kept user) (hstrands : s.Strands)
    (hlive : t.scheduler.live = true) :
    ¬ (t.UserOnly user ∧ (t.halt .requested).UserOnly user) := by
  obtain ⟨hsome, hstep⟩ := hstrands
  obtain ⟨address, haddress⟩ := Option.isSome_iff_exists.1 hsome
  have hstay : ¬ s.UserOnly user := fun honly => by
    rw [(honly hstopped).2] at haddress
    cases haddress
  rintro ⟨hnext, hhalt⟩
  cases hcase with
  | unreadable => exact hstay hnext
  | refused => exact hstay hnext
  | known word hword hcall hknown =>
    rw [hword] at hstep
    exact absurd (hknown.symm.trans hstep.2) (by simp)
  | single word hword hcall =>
    rw [hword] at hstep
    exact absurd (hcall.symm.trans hstep.1) (by simp)
  | called word hword hcall hnew breakpoints memory hadd =>
    -- from here on the old breakpoint is kept as if it were the user's
    have huser (key : UInt32) :
        s.breakpoints.contains key = true ↔ key ∈ insert address user := by
      rw [show s.breakpoints.contains key = true ↔ _ from h.contains_iff key, Finset.mem_insert,
        or_comm, show s.core.nextBreakpoint = some address from haddress, Option.some.injEq,
        eq_comm]
    have htidy := tidy_halt (tidy_resume (kept_over huser hadd hnew) hlive).toKept .requested
    have hstill := ((htidy.userOnly (runState_halt _ _)).1 address).2 (Finset.mem_insert_self ..)
    exact h.next_notMem address haddress (((hhalt (runState_halt _ _)).1 address).1 hstill)

lemma not_userOnly_of_strands (h : s.core.Kept user) (hstrands : s.Strands)
    (hlive : s.next.2.scheduler.live = true) :
    ¬ (s.next.2.UserOnly user ∧ (s.next.2.halt .requested).UserOnly user) :=
  not_userOnly_of_nextCase (nextCase s) rfl (h.congr rfl rfl) ((strands_settle s).2 hstrands) hlive

lemma tidy_restart (h : s.core.Kept user) (hlive : s.restart.2.scheduler.live = true) :
    s.restart.2.core.Tidy user := by
  obtain ⟨t, hcore, hrestart⟩ := restart_cases s
  obtain ⟨hkept, hnone⟩ := kept_cleared h
  have ht : t.core.Kept user := by
    rw [hcore]
    exact hkept.congr rfl rfl
  rw [hrestart] at hlive ⊢
  split at hlive
  · next hrunning =>
    rw [if_pos hrunning]
    exact tidy_resume ht hlive
  · next hrunning =>
    rw [if_neg hrunning]
    refine ht.tidy_of_none ?_
    rw [hcore]
    exact hnone

lemma tidy_advance (h : s.core.Tidy user) : s.advance.2.core.Tidy user := by
  rcases advance_cases s with hstay | ⟨-, hcase⟩
  · rw [hstay]
    exact h
  · generalize s.advance.2 = t at hcase
    cases hcase with
    | flying _ y _ ht =>
      rw [ht]
      exact h.congr rfl rfl rfl
    | landed _ y _ ht =>
      rw [ht]
      exact h.congr rfl rfl rfl
    | stopped _ y _ ht cause =>
      refine tidy_halt ?_ cause
      rw [ht]
      exact h.toKept.congr rfl rfl

lemma tidy_setBreakpoint (h : s.core.Tidy user) (address : UInt32) :
    (s.setBreakpoint address).2.core.Tidy
      (match (s.setBreakpoint address).1 with
      | .ok _ => insert address user
      | .error _ => user) := by
  simp only [setBreakpoint]
  split
  · next hnext =>
    -- the breakpoint of a *next* becomes the user's
    refine Core.Kept.tidy_of_none (Core.kept_of_none rfl fun key => ?_) rfl
    refine (h.contains_iff key).trans ?_
    rw [show s.core.nextBreakpoint = some address from hnext, Finset.mem_insert, or_comm,
      Option.some.injEq, eq_comm]
  · next hnext =>
    rcases hadd : s.breakpoints.add address s.memory with fault | _ | ⟨t, memory⟩
    · exact h
    · have hin : address ∈ user := by
        refine ((h.contains_iff address).1 ?_).resolve_right hnext
        exact Breakpoints.contains_of_add hadd
      rw [Finset.insert_eq_self.2 hin]
      exact h
    · refine ⟨⟨fun key => ?_, fun key hkey => ?_⟩, h.next_eq_none⟩
      · refine (Breakpoints.contains_add hadd key).trans ?_
        rw [show s.breakpoints.contains key = true ↔ _ from h.contains_iff key, Finset.mem_insert,
          or_assoc]
        exact Iff.rfl
      · rw [Finset.mem_insert, not_or]
        refine ⟨?_, h.next_notMem key hkey⟩
        rintro rfl
        exact hnext hkey

lemma tidy_unsetBreakpoint (h : s.core.Tidy user) (address : UInt32) :
    (s.unsetBreakpoint address).2.core.Tidy
      (match (s.unsetBreakpoint address).1 with
      | .ok () => user.erase address
      | .error _ => user) := by
  simp only [unsetBreakpoint]
  rcases hremove : s.breakpoints.remove address s.memory with fault | ⟨t, memory⟩
  · exact h
  have hcontains (key : UInt32) : t.contains key = true ↔
      key ≠ address ∧ (key ∈ user ∨ s.nextBreakpoint = some key) :=
    (Breakpoints.contains_remove hremove key).trans (and_congr_right fun _ => h.contains_iff key)
  dsimp only
  split
  · next hnext =>
    -- the user takes away what was to go away, and the user has no such breakpoint
    refine Core.Kept.tidy_of_none (Core.kept_of_none rfl fun key => (hcontains key).trans ?_) rfl
    rw [Finset.mem_erase]
    refine and_congr_right fun hne => or_iff_left fun hkey => ?_
    exact hne (Option.some.inj (hkey.symm.trans hnext))
  · next hnext =>
    refine ⟨⟨fun key => (hcontains key).trans ?_, fun key hkey => ?_⟩, h.next_eq_none⟩
    · rw [Finset.mem_erase, and_or_left]
      refine or_congr_right (and_iff_right_of_imp fun hkey => ?_)
      rintro rfl
      exact hnext hkey
    · exact fun hin => h.next_notMem key hkey (Finset.mem_of_mem_erase hin)

lemma tidy_writeMemory (h : s.core.Tidy user) (address : UInt32) (data : List UInt8) :
    (s.writeMemory address data).2.core.Tidy user := by
  simp only [writeMemory]
  rcases hwrite : s.breakpoints.write address data s.memory with fault | ⟨t, memory⟩
  · exact h
  obtain ⟨written, -, rfl, -⟩ := Breakpoints.write_eq_ok hwrite
  dsimp only
  rw [core_refreshWatchpoints]
  refine ⟨⟨fun key => ?_, h.next_notMem⟩, h.next_eq_none⟩
  refine Iff.trans ?_ (h.contains_iff key)
  rw [Breakpoints.contains_iff, Breakpoints.contains_iff]
  change key ∈ (s.breakpoints.saved.map _).keys ↔ key ∈ s.breakpoints.saved.keys
  rw [Directory.keys_map]

/-! ### Actions -/

lemma Stirred.tidy (h : Stirred s s') (hs : s.core.Tidy user) : s'.core.Tidy user := by
  rw [h.core]
  exact hs.congr rfl rfl rfl

lemma Stirred.setBreakpoint_fst (h : Stirred s s') (address : UInt32) :
    (s'.setBreakpoint address).1 = (s.setBreakpoint address).1 := by
  simp only [setBreakpoint]
  rw [h.breakpoints, h.nextBreakpoint, h.memory]
  split
  · rfl
  · split
    · rfl
    · rfl
    · rfl

lemma Stirred.unsetBreakpoint_fst (h : Stirred s s') (address : UInt32) :
    (s'.unsetBreakpoint address).1 = (s.unsetBreakpoint address).1 := by
  simp only [unsetBreakpoint]
  rw [h.breakpoints, h.memory]
  split
  · rfl
  · rfl

lemma commandOperation?_ne_next (command : SerialCommand) :
    commandOperation? command ≠ some .next := by
  simp only [commandOperation?]
  split <;> simp

lemma messageOperation?_eq_next {message : Message} (h : s.messageOperation? message = some .next) :
    message = .next := by
  simp only [messageOperation?] at h
  split at h
  · split at h
    · cases h
    · cases h
  all_goals first | rfl | cases h

/-- A *next* is a message of the client and nothing else. -/
lemma eq_next_of_operation? {a : Action} (h : s.operation? a = some .next) :
    a = .event (.message .next) := by
  cases a with
  | event event =>
    change s.eventOperation? event = some .next at h
    cases event with
    | message message => rw [messageOperation?_eq_next h]
    | command command => exact absurd h (commandOperation?_ne_next command)
    | interrupt =>
      change (if s.isRunning then some (Operation.halt .interrupted) else none) = _ at h
      split at h
      · cases h
      · cases h
    | detached =>
      change (if s.gdb.attached then some Operation.resume else none) = _ at h
      split at h
      · cases h
      · cases h
    | peerLost => cases h
    | attached => cases h
  | execute command => exact absurd h (commandOperation?_ne_next command)
  | _ => cases h

/-- What one action keeps, unless it strands a breakpoint. -/
theorem tidy_act (s : Session) (user : Finset UInt32) (a : Action)
    (hstrands : a = .event (.message .next) → ¬ s.Strands)
    (hlive : (s.act a).scheduler.live = true) (h : s.core.Tidy user) :
    (s.act a).core.Tidy (s.userAfter user a) := by
  by_cases ha : a = .event (.message .next)
  · subst ha
    exact tidy_next h.toKept (hstrands rfl) hlive
  obtain ⟨s', hstirred, hcore⟩ := follows_act s a
  have hs' := hstirred.tidy h
  have hlive' : (s.act a).core.scheduler.live = true := hlive
  simp only [userAfter]
  cases hop : s.operation? a with
  | none =>
    rw [hcore, hop]
    exact hs'
  | some op =>
    rw [hcore, hop] at hlive'
    rw [hcore, hop]
    cases op with
    | halt cause => exact tidy_halt hs'.toKept cause
    | resume => exact tidy_resume hs'.toKept hlive'
    | step => exact tidy_step hs'.toKept
    | next => exact absurd (eq_next_of_operation? hop) ha
    | restart => exact tidy_restart hs'.toKept hlive'
    | advance => exact tidy_advance hs'
    | setBreakpoint address =>
      dsimp only
      rw [← hstirred.setBreakpoint_fst]
      exact tidy_setBreakpoint hs' address
    | unsetBreakpoint address =>
      dsimp only
      rw [← hstirred.unsetBreakpoint_fst]
      exact tidy_unsetBreakpoint hs' address
    | write address data => exact tidy_writeMemory hs' address data

/-! ### Runs -/

/-- Along a run that strands no breakpoint, all sessions are tidy. -/
lemma tidy_run {actions : List Action} (h : s.core.Tidy user)
    (hlive : (s.run actions).scheduler.live = true)
    (hstrands : ∀ before, before ++ [.event (.message .next)] <+: actions →
      ¬ (s.run before).Strands) :
    (s.run actions).core.Tidy (follow userAfter s user actions) := by
  induction actions generalizing s user with
  | nil => exact h
  | cons a rest ih =>
    have hact : (s.act a).scheduler.live = true := live_of_live_run hlive
    refine ih (tidy_act s user a ?_ hact h) hlive fun before hbefore => ?_
    · rintro rfl
      exact hstrands [] (List.prefix_append _ rest)
    · exact hstrands (a :: before) (List.cons_prefix_cons.2 ⟨rfl, hbefore⟩)

/-- The user's breakpoints, and no others, survive a stop, as long as no breakpoint is
stranded, and only so long: each state of a run, and the state after a stop in its place,
has the user's breakpoints if stopped, exactly if no *next* of the run strands one. -/
theorem userOnly_iff_not_strands (scheduler : Scheduler) (config : Config)
    (disassembler : Disassembler) (tapes : Tapes) (connected : Bool) (actions : List Action) :
    let start := create scheduler config disassembler tapes connected
    (start.run actions).scheduler.live = true →
    ((∀ before, before <+: actions →
      let user := follow userAfter start ∅ before
      (start.run before).UserOnly user ∧
        (start.run (before ++ [.event (.message .stop)])).UserOnly user) ↔
      ∀ before, before ++ [.event (.message .next)] <+: actions →
        ¬ (start.run before).Strands) := by
  intro start hlive
  have hstart : start.core.Tidy ∅ := by
    rw [core_create]
    exact Core.Kept.tidy_of_none (Core.kept_of_none rfl fun address =>
      iff_of_false (by simp [Breakpoints.contains, Directory.contains, Directory.get?])
        (by simp)) rfl
  have halive {before : List Action} (h : before <+: actions) :
      (start.run before).scheduler.live = true := by
    obtain ⟨rest, rfl⟩ := h
    rw [run_append] at hlive
    exact live_of_live_run hlive
  constructor
  · intro honly before
    -- the sessions before the first *next* that strands a breakpoint are tidy
    induction hlength : before.length using Nat.strong_induction_on generalizing before with
    | _ n ih =>
    intro hbefore hstrands
    have hfirst := (List.prefix_append before [.event (.message .next)]).trans hbefore
    have htidy : (start.run before).core.Tidy (follow userAfter start ∅ before) := by
      refine tidy_run hstart (halive hfirst) fun p hp => ?_
      have hle := hp.length_le
      rw [List.length_append, List.length_singleton] at hle
      exact ih p.length (by omega) p rfl (hp.trans hfirst)
    have hnext := honly _ hbefore
    have hend := halive hbefore
    rw [follow_append, run_append, run_append, run_append] at hnext
    rw [run_append] at hend
    exact not_userOnly_of_strands htidy.toKept hstrands hend hnext
  · intro hstrands before hbefore user
    have htidy := tidy_run hstart (halive hbefore) fun p hp => hstrands p (hp.trans hbefore)
    refine ⟨htidy.userOnly, ?_⟩
    rw [run_append]
    exact (tidy_halt htidy.toKept .requested).userOnly

/-- A *next* over the call at address 0, with a breakpoint of the user at address 8: when the
call has returned, the breakpoint behind it is gone. -/
theorem userOnly_after_next :
    let start := create { machine := Machine.create 16 [0, 0, 0, 0xeb] } { symbolsAddress := 16 }
      .standard {} false
    let s := start.run [.event (.message (.setBreakpoint 8)), .event (.message .next), .advance]
    s.scheduler.live = true ∧ s.runState = .stopped ∧ s.breakpoints.contains 8 = true ∧
      s.breakpoints.contains 4 = false := by
  intro start s
  have hlive : s.scheduler.live = true := by decide +kernel
  have hstopped : s.runState = .stopped := by decide +kernel
  have honly := (userOnly_iff_not_strands { machine := Machine.create 16 [0, 0, 0, 0xeb] }
    { symbolsAddress := 16 } .standard {} false _ hlive).2
  have hstrands (before : List Action) (hbefore : before ++ [.event (.message .next)] <+:
      [.event (.message (.setBreakpoint 8)), .event (.message .next), .advance]) :
      ¬ (start.run before).Strands := by
    obtain ⟨rest, hrest⟩ := hbefore
    match before, hrest with
    | [a], hrest =>
      obtain rfl : a = .event (.message (.setBreakpoint 8)) := (List.cons.inj hrest).1
      exact fun h => absurd h.1 (by decide +kernel)
    | [_, _], hrest => simp at hrest
    | _ :: _ :: _ :: _, hrest => simp at hrest
  obtain ⟨huser, -⟩ := (honly hstrands _ List.prefix_rfl).1 hstopped
  refine ⟨hlive, hstopped, (huser 8).2 (by decide +kernel), ?_⟩
  rw [← Bool.not_eq_true, huser]
  decide +kernel

/-- Two calls, at addresses 0 and 4, and a breakpoint of the user at the first.  The second
*next* forgets the breakpoint that the first has put up at address 4. -/
theorem breakpoint_stranded_by_next :
    let start := create { machine := Machine.create 16 [0, 0, 0, 0xeb, 0, 0, 0, 0xeb] }
      { symbolsAddress := 16 } .standard {} false
    let actions : List Action := [.event (.message (.setBreakpoint 0)), .event (.message .next),
      .event (.message .next), .event (.message .stop)]
    let s := start.run actions
    s.scheduler.live = true ∧ s.runState = .stopped ∧ s.breakpoints.contains 4 = true ∧
      4 ∉ follow userAfter start ∅ actions := by
  decide +kernel

end Session
end RemoteDebugger
