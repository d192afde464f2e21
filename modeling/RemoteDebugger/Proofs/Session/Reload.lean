/-
# Symbols and traps

When the symbols may have changed they are read again at the next stop, and this reads memory
as it is, with the traps in it.  A trap among the symbols is read as part of them.  As long as
reading the symbols looks at no word of a breakpoint, they are those of plain memory
(`Session.symbols_of_stops`).
-/
import RemoteDebugger.Proofs.Session.Report
import RemoteDebugger.Proofs.Symbol.Reads

namespace RemoteDebugger

/-- Away from the breakpoints memory is plain memory. -/
lemma Breakpoints.byte?_plain_of_clear {t : Breakpoints} (ht : t.Aligned) (memory : Memory)
    {i : Nat} (hclear : ∀ key ∈ t.saved.keys, i < key.toNat ∨ key.toNat + 4 ≤ i) :
    (t.plain memory).byte? i = memory.byte? i := by
  by_cases hi : i < memory.size
  · have hover : t.wordOver? i = none := by
      cases hword : t.wordOver? i with
      | none => rfl
      | some word =>
        obtain ⟨key, hbase, hunder⟩ := exists_of_wordOver? hword
        have hkey := hclear key (mem_keys_iff.2 ⟨word, hunder⟩)
        simp only [Word.base] at hbase
        omega
    rw [byte?_plain ht memory hi, hover]
    rfl
  · rw [Memory.byte?_eq_none_iff.2 (by rw [size_plain]; omega),
      Memory.byte?_eq_none_iff.2 (by omega)]

/-- The traps have no say in what symbols are read if they are out of the way. -/
lemma Breakpoints.scan_plain_of_clear {t : Breakpoints} (ht : t.Aligned) {memory : Memory}
    {address : UInt32} {limits : SymbolTable.Limits}
    (hclear : ∀ key, t.contains key = true → ∀ i,
      SymbolTable.Reads (t.plain memory) address limits i →
        i < key.toNat ∨ key.toNat + 4 ≤ i) :
    SymbolTable.scan (t.plain memory) address limits = SymbolTable.scan memory address limits := by
  refine (SymbolTable.scan_congr fun i hreads => ?_).symm
  refine (byte?_plain_of_clear ht memory fun key hkey => ?_).symm
  exact hclear key (contains_iff.2 hkey) i hreads

namespace Session

variable {s u : Session} {a : Action}

lemma symbols_pushUpdate (s : Session) : s.pushUpdate.symbols = s.symbols := by
  simp only [pushUpdate]
  split
  · rfl
  · rfl

/-- Symbols that can be read take the place of the old. -/
lemma symbols_afterStop_of_ok (h : s.invalidated = true) {symbols : SymbolTable}
    (hscan : s.scanSymbols = .ok symbols) : s.afterStop.symbols = symbols := by
  rw [afterStop, symbols_pushUpdate, reloadSymbols_of_ok h hscan]
  rfl

lemma symbols_afterStop_of_error (h : s.invalidated = true) {fault : Fault}
    (hscan : s.scanSymbols = .error fault) : s.afterStop.symbols = s.symbols := by
  rw [afterStop, symbols_pushUpdate, reloadSymbols_of_error h hscan]

/-- A session at a stop reads the symbols of the memory that is there after the action. -/
lemma StopPoint.scanSymbols_eq (h : s.StopPoint a u) :
    u.scanSymbols =
      SymbolTable.scan (s.act a).memory s.config.symbolsAddress s.config.limits := by
  have hconfig : u.config = s.config := congrArg Reporting.config h.reached
  rw [scanSymbols, hconfig, h.memory]

/-- The symbols that a session at a stop reads take the place of the old, and are sent. -/
lemma StopPoint.symbols_eq (h : s.StopPoint a u) (hraised : s.stopInvalidated a = true)
    (result : Except Fault SymbolTable) :
    u.scanSymbols = result →
      match result with
      | .ok symbols => (s.act a).symbols = symbols ∧ ∃ rest, (s.act a).sent.toList =
          s.sent.toList ++ s.stopNotice a ++ .symbolData symbols.entries :: rest
      | .error _ => (s.act a).symbols = s.symbols := by
  intro hscan
  have hinvalidated : u.invalidated = true :=
    (congrArg Reporting.invalidated h.reached).trans hraised
  have hsymbols : (s.act a).symbols = u.afterStop.symbols := congrArg Reporting.symbols h.reported
  cases result with
  | error fault =>
    have hold : u.symbols = s.symbols := congrArg Reporting.symbols h.reached
    exact hsymbols.trans ((symbols_afterStop_of_error hinvalidated hscan).trans hold)
  | ok symbols =>
    have hsent : (s.act a).sent.toList = u.afterStop.sent.toList :=
      congrArg Reporting.sent h.reported
    have hreached : u.sent.toList = s.sent.toList ++ s.stopNotice a :=
      congrArg Reporting.sent h.reached
    refine ⟨hsymbols.trans (symbols_afterStop_of_ok hinvalidated hscan), ?_⟩
    rw [hsent, sent_afterStop, hinvalidated, symbolReport_of_ok hscan, hreached]
    exact ⟨_, rfl⟩

/-- At a stop at which the symbols may have changed, and at which reading them from plain memory
ends and looks at no word of a breakpoint, the symbols become those of plain memory, and these are
sent; if they cannot be read the old ones stay. -/
theorem symbols_of_stops (scheduler : Scheduler) (config : Config) (disassembler : Disassembler)
    (tapes : Tapes) (connected : Bool)
    (hsize : scheduler.machine.image.size = scheduler.memory.size) (actions : List Action)
    (a : Action) :
    let s := (create scheduler config disassembler tapes connected).run actions
    let t := s.act a
    let plain := t.breakpoints.plain t.memory
    s.Stops a → s.stopInvalidated a = true →
      (∀ key, t.breakpoints.contains key = true → ∀ i,
        SymbolTable.Reads plain s.config.symbolsAddress s.config.limits i →
          i < key.toNat ∨ key.toNat + 4 ≤ i) →
      ∀ result, SymbolTable.Cursor.Ends plain s.config.limits
          { address := s.config.symbolsAddress } result →
        SymbolTable.scan plain s.config.symbolsAddress s.config.limits = result ∧
          match result with
          | .ok symbols => t.symbols = symbols ∧ ∃ rest, t.sent.toList =
              s.sent.toList ++ s.stopNotice a ++ .symbolData symbols.entries :: rest
          | .error _ => t.symbols = s.symbols := by
  intro s t plain ha hraised hclear result hends
  refine ⟨hends.scan_eq, ?_⟩
  have hshows := shows_run scheduler config disassembler tapes connected hsize actions
  have hinstalled : t.breakpoints.Installed t.memory := (shows_act s _ a hshows).installed
  obtain ⟨u, hu⟩ := exists_stopPoint hshows ha
  refine hu.symbols_eq hraised result ?_
  rw [hu.scanSymbols_eq, ← Breakpoints.scan_plain_of_clear hinstalled.aligned hclear]
  exact hends.scan_eq

/-- Breakpoints before the symbols and behind all that is read of them. -/
theorem symbols_beside_breakpoints :
    let image : List UInt8 := List.replicate 32 0 ++ [0, 0, 0, 16, 0x6d, 0x61, 0x69, 0x6e]
    let scheduler : Scheduler := { machine := Machine.create 64 image }
    let s := (create scheduler { symbolsAddress := 32 } .standard {} true).run
      [.event (.message (.setBreakpoint 28)), .event (.message (.setBreakpoint 48)),
        .event (.message .tapeUnload)]
    let t := s.act (.event (.message .stop))
    scheduler.machine.image.size = scheduler.memory.size ∧ s.Stops (.event (.message .stop)) ∧
      s.stopInvalidated (.event (.message .stop)) = true ∧
      (∀ key, t.breakpoints.contains key = true → ∀ i,
        SymbolTable.Reads (t.breakpoints.plain t.memory) s.config.symbolsAddress s.config.limits i →
          i < key.toNat ∨ key.toNat + 4 ≤ i) ∧
      SymbolTable.Cursor.Ends (t.breakpoints.plain t.memory) s.config.limits
        { address := s.config.symbolsAddress } (.ok (.ofPairs [(16, "main")])) ∧
      t.symbols.entries = [(16, "main")] := by
  intro image scheduler s t
  have hsize : scheduler.machine.image.size = scheduler.memory.size := rfl
  have hraised : s.stopInvalidated (.event (.message .stop)) = true := by decide +kernel
  have hkeys : t.breakpoints.saved.keys = [28, 48] := by decide +kernel
  have hstays : SymbolTable.Cursor.staysWithin (t.breakpoints.plain t.memory) s.config.limits 32 48
      7 { address := s.config.symbolsAddress } = true := by decide +kernel
  have hclear : ∀ key, t.breakpoints.contains key = true → ∀ i,
      SymbolTable.Reads (t.breakpoints.plain t.memory) s.config.symbolsAddress s.config.limits i →
        i < key.toNat ∨ key.toNat + 4 ≤ i := by
    intro key hkey i hreads
    obtain ⟨hlower, hupper⟩ := hreads.bounds hstays
    have hmem : key ∈ [28, 48] := hkeys ▸ Breakpoints.contains_iff.1 hkey
    obtain rfl | rfl : key = 28 ∨ key = 48 := by simpa using hmem
    · exact .inr hlower
    · exact .inl hupper
  have hscan : SymbolTable.scan (t.breakpoints.plain t.memory) s.config.symbolsAddress
      s.config.limits = .ok (.ofPairs [(16, "main")]) := by decide +kernel
  have hends := (SymbolTable.Cursor.ends_iff (by decide +kernel) _ _ _).2 hscan
  obtain ⟨-, hsymbols, -⟩ := symbols_of_stops scheduler { symbolsAddress := 32 } .standard {} true
    hsize [.event (.message (.setBreakpoint 28)), .event (.message (.setBreakpoint 48)),
      .event (.message .tapeUnload)] (.event (.message .stop)) .requested hraised hclear _ hends
  exact ⟨hsize, .requested, hraised, hclear, hends, congrArg Directory.entries hsymbols⟩

/-- A breakpoint on the name of a symbol: at a stop after the tape was taken out the symbol is
lost, although plain memory has it. -/
theorem symbol_lost_under_trap :
    let image : List UInt8 := List.replicate 32 0 ++ [0, 0, 0, 16, 0x6d, 0x61, 0x69, 0x6e]
    let s := (create { machine := Machine.create 64 image } { symbolsAddress := 32 } .standard {}
        true).run
      [.event (.message (.setBreakpoint 36)), .event (.message .tapeUnload)]
    let t := s.act (.event (.message .stop))
    s.symbols.entries = [(16, "main")] ∧ t.symbols.entries = [] ∧
      SymbolTable.scan t.memory s.config.symbolsAddress s.config.limits = .ok {} ∧
      SymbolTable.scan (t.breakpoints.plain t.memory) s.config.symbolsAddress s.config.limits =
        .ok (.ofPairs [(16, "main")]) := by
  decide +kernel

end Session
end RemoteDebugger
