/-
# Calls

A *next* over a call ends where a single step of the call does, by quite another way.  The
step executes the call under a breakpoint, if there is one.  The *next* puts a breakpoint
behind the call, unless there is one, lets the machine run slice after slice and takes its
breakpoint away at the stop.

To the machine a call is a word like others, so the run comes to the breakpoint behind it
after one cycle (`Session.AtCall.firstStop`).  By either way the same breakpoints are left and
plain memory is untouched; so the words that are kept and memory with the traps in it are the
same, too.
-/
import RemoteDebugger.Proofs.Session.Continuation

namespace RemoteDebugger
namespace Session

/-- A session that stands on a call and can be set going. -/
structure AtCall (s : Session) : Prop where
  /-- The session can be set going. -/
  poised : s.Poised
  /-- The word at the program counter is a call. -/
  calls : ∃ word, (s.breakpoints.plain s.memory).word? s.pc = some word ∧
    Instruction.isCall word = true
  /-- There is a word behind it. -/
  room : s.pc.toNat + 8 ≤ s.memory.size

/-- The session after a *next* and so many slices. -/
def nexted (s : Session) (slices : Nat) : Session := (fun s => s.advance.2)^[slices] s.next.2

/-- A session in which all is set for a *next*: a breakpoint is behind the call, and goes away
at the stop if it is new. -/
structure Readied (s s' : Session) : Prop where
  /-- The session stands on the call. -/
  atCall : s'.AtCall
  /-- It is in order. -/
  orderly : s'.core.Orderly
  /-- The traps are in memory. -/
  installed : s'.breakpoints.Installed s'.memory
  /-- Plain memory is the same. -/
  plain_eq : s'.breakpoints.plain s'.memory = s.breakpoints.plain s.memory
  /-- So is everything else in the machine. -/
  machine_eq : s'.scheduler.machine = s.scheduler.machine.withMemory s'.memory
  /-- A slice has as many cycles. -/
  cycles_eq : s'.config.frameCycles = s.config.frameCycles
  /-- There is a breakpoint behind the call. -/
  behind : s'.breakpoints.contains (s'.pc + 4) = true
  /-- The breakpoints that stay are the same. -/
  contains_iff (address : UInt32) :
    s'.breakpoints.contains address = true ∧ s'.nextBreakpoint ≠ some address ↔
      s.breakpoints.contains address = true

variable {s s' : Session} {image plain : Memory}

/-! ### One cycle -/

lemma ne_trapWord_of_isCall {word : UInt32} (h : Instruction.isCall word = true) :
    word ≠ trapWord := by
  rintro rfl
  exact absurd h (by decide)

lemma ne_waitWord_of_isCall {word : UInt32} (h : Instruction.isCall word = true) :
    word ≠ waitWord := by
  rintro rfl
  exact absurd h (by decide)

namespace AtCall

lemma isCall_fetch (h : s.AtCall) : Instruction.isCall (s.plainMachine 0).fetch = true := by
  obtain ⟨word, hword, hcall⟩ := h.calls
  change Instruction.isCall (((s.breakpoints.plain s.memory).word? s.pc).getD 0) = true
  rwa [hword]

lemma toNat_behind (h : s.AtCall) :
    (s.pc + 4).toNat % 4 = 0 ∧ (s.pc + 4).toNat + 4 ≤ s.memory.size := by
  have haligned : s.pc.toNat % 4 = 0 := h.poised.steady.aligned
  have hroom := h.room
  rw [UInt32.toNat_add]
  change (s.pc.toNat + 4) % 2 ^ 32 % 4 = 0 ∧ (s.pc.toNat + 4) % 2 ^ 32 + 4 ≤ s.memory.size
  omega

/-- The plain machine goes on to the word behind the call. -/
lemma cycle_plainMachine (h : s.AtCall) :
    (s.plainMachine 0).cycle = (.done, (s.plainMachine 0).setPc (s.pc + 4)) := by
  have hcall := h.isCall_fetch
  have hsteady : (s.plainMachine 0).Steady := h.poised.steady.withMemory _
  have hnext : (s.plainMachine 0).nextPc = s.pc + 4 := by
    have hsize : (s.plainMachine 0).memory.size = s.memory.size := by
      rw [memory_plainMachine, Breakpoints.size_plain]
    obtain ⟨-, hbehind⟩ := h.toNat_behind
    rw [Machine.nextPc, hsize]
    exact if_neg (by change ¬ s.memory.size ≤ (s.pc + 4).toNat; omega)
  rw [hsteady.cycle_of_ne (ne_trapWord_of_isCall hcall) (ne_waitWord_of_isCall hcall), hnext]

lemma plainMachine_one (h : s.AtCall) :
    s.plainMachine 1 = (s.plainMachine 0).setPc (s.pc + 4) := by
  have hone : s.plainMachine 1 = (s.plainMachine 0).cycle.2 := Machine.after_succ _ 0
  rw [hone, h.cycle_plainMachine]

/-- With a breakpoint behind the call the machine stops there, after one cycle. -/
lemma firstStop (h : s.AtCall) (hbehind : s.breakpoints.contains (s.pc + 4) = true) :
    s.FirstStop 1 where
  stops := by
    left
    rwa [h.plainMachine_one, Machine.pc_setPc]
  leaves _ := Nat.le_refl 1
  first i hi hleaves := by
    obtain rfl : i = 0 := by omega
    rintro (hcontains | htrap)
    · exact absurd (hleaves hcontains) (by decide)
    · exact ne_trapWord_of_isCall h.isCall_fetch htrap

/-! ### The step -/

/-- A step executes the call, and changes neither breakpoints nor memory. -/
lemma step (h : s.AtCall) (horderly : s.core.Orderly) (ht : s.breakpoints.Installed s.memory)
    (hnext : s.nextBreakpoint = none) :
    s.step.1 = .ok .done ∧
      s.step.2.scheduler.machine.registers = (s.plainMachine 1).registers ∧
      s.step.2.memory = s.memory ∧ s.step.2.breakpoints = s.breakpoints := by
  have hcleared : s.settle.clearNextBreakpoint = s := by
    rw [settle_of_stopped h.poised.stopped (horderly.landed h.poised.stopped),
      clearNextBreakpoint, hnext]
  have hsteady : (s.plainMachine 0).Steady := h.poised.steady.withMemory _
  have hmachine : s.scheduler.machine = (s.plainMachine 0).withMemory s.memory := rfl
  have hcycle : s.breakpoints.cycle s.scheduler = _ :=
    ht.cycle_of_ne_wait h.poised.live (h.poised.not_waiting horderly) hmachine rfl hsteady
      (ne_waitWord_of_isCall h.isCall_fetch)
  obtain ⟨houtcome, hcore⟩ := step_cycle s
  rw [hcleared, hcycle, h.cycle_plainMachine] at houtcome hcore
  refine ⟨houtcome, ?_, ?_, breakpoints_of_core hcore⟩
  · rw [scheduler_of_core hcore, h.plainMachine_one]
    rfl
  · rw [memory, scheduler_of_core hcore]
    rfl

/-! ### The next -/

lemma currentWord_eq (h : s.AtCall) (ht : s.breakpoints.Installed s.memory) :
    ∃ word, s.currentWord = .ok word ∧ Instruction.isCall word = true := by
  obtain ⟨word, hword, hcall⟩ := h.calls
  refine ⟨word, ?_, hcall⟩
  have haligned : s.pc.toNat % 4 = 0 := h.poised.steady.aligned
  rw [ht.word?_plain haligned] at hword
  rw [currentWord]
  cases hunder : s.breakpoints.wordUnder? s.pc with
  | none =>
    rw [hunder, Option.none_or] at hword
    exact Memory.readWord_eq_ok_iff.2 hword
  | some kept =>
    rw [hunder, Option.some_or] at hword
    exact congrArg Except.ok (Option.some.inj hword)

/-- A session at a call is readied by a new breakpoint behind it, which is the one that goes
away at the stop. -/
lemma readied_of_add (h : s.AtCall) (horderly : s.core.Orderly)
    (ht : s.breakpoints.Installed s.memory)
    (hunknown : ¬ s.breakpoints.contains (s.pc + 4) = true) {t : Breakpoints} {memory : Memory}
    (hadd : s.breakpoints.add (s.pc + 4) s.memory = .ok (t, memory)) :
    Readied s ({ s with nextBreakpoint := some (s.pc + 4) }.setBreakpoints t memory) := by
  have hcontains := Breakpoints.contains_add hadd
  have hplain := Breakpoints.plain_of_add ht.aligned hadd
  exact
    { atCall :=
        { poised :=
            { live := h.poised.live
              stopped := h.poised.stopped
              steady := h.poised.steady.withMemory memory
              unwatched := h.poised.unwatched }
          calls := by
            change ∃ word, (t.plain memory).word? s.pc = some word ∧ _
            rw [hplain]
            exact h.calls
          room := by
            change s.pc.toNat + 8 ≤ memory.size
            rw [size_of_add hadd]
            exact h.room }
      orderly :=
        { honest := horderly.honest
          landed := horderly.landed
          promised := fun address haddress =>
            (hcontains address).2 (.inl (Option.some.inj haddress).symm) }
      installed := ht.add hadd
      plain_eq := hplain
      machine_eq := rfl
      cycles_eq := rfl
      behind := (hcontains _).2 (.inl rfl)
      contains_iff := fun address => by
        change t.contains address = true ∧ some (s.pc + 4) ≠ some address ↔ _
        rw [hcontains]
        constructor
        · rintro ⟨rfl | hold, hne⟩
          · exact absurd rfl hne
          · exact hold
        · intro hold
          refine ⟨.inr hold, fun heq => hunknown ?_⟩
          rwa [Option.some.inj heq] }

/-- A *next* lets the machine run once there is a breakpoint behind the call. -/
lemma exists_readied (h : s.AtCall) (horderly : s.core.Orderly)
    (ht : s.breakpoints.Installed s.memory) (hnext : s.nextBreakpoint = none) :
    ∃ s', Readied s s' ∧ s.next = s'.resume := by
  obtain ⟨word, hword, hcall⟩ := h.currentWord_eq ht
  have hsettle := settle_of_stopped h.poised.stopped (horderly.landed h.poised.stopped)
  simp only [next]
  rw [hsettle, hword]
  dsimp only
  rw [if_pos hcall]
  by_cases hknown : s.breakpoints.contains (s.pc + 4) = true
  · rw [if_pos hknown]
    refine ⟨s, ⟨h, horderly, ht, rfl, rfl, rfl, hknown, fun address => ?_⟩, rfl⟩
    rw [hnext]
    exact and_iff_left (by simp)
  · rw [if_neg hknown]
    obtain ⟨haligned, hroom⟩ := h.toNat_behind
    obtain ⟨t, memory, hadd⟩ := Breakpoints.exists_add haligned (by simpa using hknown) hroom
    rw [setNextBreakpoint, hadd]
    exact ⟨_, h.readied_of_add horderly ht hknown hadd, rfl⟩

end AtCall

lemma Readied.plainMachine_eq (h : Readied s s') (cycles : Nat) :
    s'.plainMachine cycles = s.plainMachine cycles := by
  rw [plainMachine, plainMachine, h.plain_eq, h.machine_eq]
  rfl

lemma Readied.shows (h : Readied s s') (hshows : s.core.Shows image plain) :
    s'.core.Shows image plain where
  installed := h.installed
  plain_eq := h.plain_eq.trans hshows.plain_eq
  image_eq := by
    change s'.scheduler.machine.image = image
    rw [h.machine_eq]
    exact hshows.image_eq
  size_eq := by
    have hsize := congrArg Memory.size h.plain_eq
    rw [Breakpoints.size_plain, Breakpoints.size_plain] at hsize
    exact hshows.size_eq.trans hsize.symm

/-- A session that is readied stops behind the call, with the breakpoints and the memory that
there were before. -/
lemma Readied.exists_stop (h : Readied s s') (hshows : s.core.Shows image plain)
    (hcycles : s.config.frameCycles ≠ 0) :
    s'.resume.1 = .ok () ∧ ∃ n,
      (∀ j < n, (s'.continued j).runState = .running ∧ (s'.continued j).advance.1 = .ok ()) ∧
      (s'.continued n).runState = .stopped ∧
      (s'.continued n).scheduler.machine.registers = (s.plainMachine 1).registers ∧
      (s'.continued n).breakpoints = s.breakpoints ∧ (s'.continued n).memory = s.memory := by
  have hstop : s'.FirstStop 1 := h.atCall.firstStop h.behind
  have hwait : ∀ i < 1, (s'.plainMachine i).fetch ≠ waitWord := by
    intro i hi
    obtain rfl : i = 0 := by omega
    exact ne_waitWord_of_isCall h.atCall.isCall_fetch
  obtain ⟨hok, n, hrunning, hstopped⟩ :=
    h.atCall.poised.exists_stop h.orderly h.installed (h.cycles_eq ▸ hcycles) hstop hwait
  refine ⟨hok, n, hrunning, hstopped.stopped, ?_, ?_⟩
  · rw [hstopped.registers_eq, h.plainMachine_eq]
  · have hend := shows_continued (h.shows hshows) n
    exact hshows.installed.eq_of_plain hend.installed
      (fun address => (hstopped.contains_iff address).trans (h.contains_iff address))
      (hend.plain_eq.trans hshows.plain_eq.symm)

/-- A session that stands on a call, with none of its breakpoints to go away, is set going by a
*next*, and stops with the registers, the memory and the breakpoints that a single step leaves,
whatever the size of its slices and wherever there are breakpoints. -/
theorem next_stops_where_step_does (scheduler : Scheduler) (config : Config)
    (disassembler : Disassembler) (tapes : Tapes) (connected : Bool)
    (hhonest : scheduler.Honest) (hsize : scheduler.machine.image.size = scheduler.memory.size)
    (actions : List Action) (cycles : UInt32) (hcycles : cycles ≠ 0) :
    let s := ((create scheduler config disassembler tapes connected).run actions).withFrameCycles
      cycles
    s.AtCall → s.nextBreakpoint = none →
      s.step.1 = .ok .done ∧ s.next.1 = .ok () ∧ ∃ n,
        (∀ j < n, (s.nexted j).runState = .running ∧ (s.nexted j).advance.1 = .ok ()) ∧
        (s.nexted n).runState = .stopped ∧
        (s.nexted n).scheduler.machine.registers = s.step.2.scheduler.machine.registers ∧
        (s.nexted n).memory = s.step.2.memory ∧
        (s.nexted n).breakpoints = s.step.2.breakpoints := by
  intro s hcall hnext
  have horderly : s.core.Orderly :=
    orderly_run (orderly_create hhonest config disassembler tapes connected) actions
  have hshows : s.core.Shows scheduler.machine.image _ :=
    shows_run scheduler config disassembler tapes connected hsize actions
  obtain ⟨hstep, hregisters, hmemory, hbreakpoints⟩ :=
    hcall.step horderly hshows.installed hnext
  obtain ⟨s', hready, hresume⟩ := hcall.exists_readied horderly hshows.installed hnext
  obtain ⟨hok, n, hrunning, hstopped, hregisters', hbreakpoints', hmemory'⟩ :=
    hready.exists_stop hshows hcycles
  have hnexted (i : Nat) : s.nexted i = s'.continued i := by rw [nexted, hresume, continued]
  refine ⟨hstep, hresume ▸ hok, n, ?_⟩
  simp only [hnexted, hregisters, hmemory, hbreakpoints]
  exact ⟨hrunning, hstopped, hregisters', hmemory', hbreakpoints'⟩

/-- There is a breakpoint on the call at address 0.  A *next* stops behind the call, and leaves
that breakpoint and no other. -/
theorem next_stops_behind_call_at_zero :
    let s := ((create { machine := Machine.create 16 [0, 0, 0, 0xeb] } { symbolsAddress := 16 }
      .standard {} false).run [.event (.message (.setBreakpoint 0))]).withFrameCycles 1
    s.AtCall ∧ s.nextBreakpoint = none ∧ s.next.1 = .ok () ∧ ∃ n,
      (s.nexted n).runState = .stopped ∧ (s.nexted n).pc = 4 ∧
      (s.nexted n).memory = s.memory ∧ (s.nexted n).breakpoints = s.breakpoints := by
  intro s
  have hcall : s.AtCall :=
    { poised :=
        { live := by decide +kernel
          stopped := by decide +kernel
          steady := ⟨by decide +kernel, by decide +kernel, by decide +kernel⟩
          unwatched := List.isEmpty_iff.1 (by decide +kernel) }
      calls := ⟨0xeb000000, by decide +kernel, by decide⟩
      room := by decide +kernel }
  have hnone : s.nextBreakpoint = none := by decide +kernel
  obtain ⟨-, hok, n, -, hstopped, hregisters, hmemory, hbreakpoints⟩ :=
    next_stops_where_step_does { machine := Machine.create 16 [0, 0, 0, 0xeb] }
      { symbolsAddress := 16 } .standard {} false (fun h => by cases h) rfl
      [.event (.message (.setBreakpoint 0))] 1 (by decide) hcall hnone
  refine ⟨hcall, hnone, hok, n, hstopped, ?_, ?_, ?_⟩
  · change (s.nexted n).scheduler.machine.registers[15] = 4
    rw [hregisters]
    decide +kernel
  · exact hmemory.trans (by decide +kernel)
  · exact hbreakpoints.trans (by decide +kernel)

end Session
end RemoteDebugger
