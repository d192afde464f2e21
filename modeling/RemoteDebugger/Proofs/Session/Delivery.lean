/-
# What a session sends arrives

Every message that a session sends has counts that fit, as many lines as words in a listing,
ASCII lines and plain names of symbols, provided that the texts of single instructions are
plain.  This is an invariant of sessions: it also says of the symbols that were read last
that their names are plain.

It leaves three things open, and whether a message arrives depends on just these: its length,
the names of tapes, which are sent as they are in the catalogue, and the names of symbols in
listings, which may break the lines.
-/
import RemoteDebugger.Proofs.Breakpoint.Plain
import RemoteDebugger.Proofs.Instruction.Listing
import RemoteDebugger.Proofs.Session.Action
import RemoteDebugger.Proofs.Wire.Delivery

namespace RemoteDebugger

/-! ### Messages -/

namespace Message

/-- The form of every message that a session sends. -/
def Regular : Message → Prop
  | .connect _ => False
  | .memoryData contents => contents.data.length < 0x100000000
  | .disassemblyData listing =>
    listing.memory.length < 0x100000000 ∧ listing.lines.length = listing.memory.length / 4 ∧
      ∀ line ∈ listing.lines, PlainText none line
  | .tapeList window => window.names.length < 0x100000000
  | .symbolData symbols => ∀ symbol ∈ symbols, PlainText (some '\x00') symbol.2
  | _ => True

/-- The texts of a message keep clear of what parts them: names of tapes are plain and have no
NUL, lines of listings no line feed. -/
def Separable : Message → Prop
  | .disassemblyData listing => ∀ line ∈ listing.lines, '\n' ∉ line.toList
  | .tapeList window => ∀ name ∈ window.names, PlainText (some '\x00') name
  | _ => True

lemma plainText_iff {c : Char} {text : String} :
    PlainText (some c) text ↔ PlainText none text ∧ c ∉ text.toList := by
  constructor
  · intro h
    exact ⟨h.ascii, fun hc => (h c hc).2 rfl⟩
  · rintro ⟨hplain, hc⟩ d hd
    refine ⟨(hplain d hd).1, ?_⟩
    rintro heq
    obtain rfl := Option.some.inj heq
    exact hc hd

lemma Regular.wellFormed_iff {message : Message} (h : message.Regular) :
    message.WellFormed ↔ message.Separable := by
  cases message with
  | connect handshake => exact absurd h not_false
  | disassemblyData listing =>
    obtain ⟨hmemory, hlength, hlines⟩ := h
    constructor
    · rintro ⟨-, -, hplain⟩ line hline
      exact (plainText_iff.1 (hplain line hline)).2
    · intro hseparable
      exact ⟨hmemory, hlength, fun line hline =>
        plainText_iff.2 ⟨hlines line hline, hseparable line hline⟩⟩
  | tapeList window => exact ⟨fun hwell => hwell.2, fun hnames => ⟨h, hnames⟩⟩
  | _ => exact ⟨fun _ => trivial, fun _ => h⟩

end Message

namespace Disassembler

/-- The lines have the usual form, and the texts of single instructions are plain. -/
def Plain (disassembler : Disassembler) : Prop :=
  ∃ text, (∀ address word, Message.PlainText (some '\n') (text address word)) ∧
    disassembler = .ofText text

end Disassembler

namespace Session

/-- What is sent has the form that it should have, and so has what it is made from. -/
structure RegularOutput (sent : Array Message) (symbols : SymbolTable)
    (disassembler : Disassembler) : Prop where
  /-- What was sent. -/
  sent : ∀ message ∈ sent, message.Regular
  /-- The symbols that were read last. -/
  symbols : symbols.Plain
  /-- What makes the lines of listings. -/
  disassembler : disassembler.Plain

/-- A session whose output has the form that it should have. -/
def Regular (s : Session) : Prop := RegularOutput s.sent s.symbols s.disassembler

variable {s : Session}

/-! ### What is sent -/

lemma length_of_readMemory {address : UInt32} {length : Nat} {data : List UInt8}
    (h : s.readMemory address length = .ok data) : data.length = length := by
  simp only [readMemory, range, Memory.extract] at h
  split at h
  · next hle =>
    obtain rfl := Except.ok.inj h
    change (s.breakpoints.overlay _ _).size = length
    rw [Breakpoints.size_overlay, ByteArray.size_extract]
    change address.toNat + length ≤ s.memory.bytes.size at hle
    omega
  · cases h

lemma length_wordsOf (bytes : List UInt8) : (wordsOf bytes).length = bytes.length / 4 := by
  induction bytes using wordsOf.induct with
  | case1 b₀ b₁ b₂ b₃ rest ih =>
    rw [wordsOf, List.length_cons, ih]
    simp only [List.length_cons]
    omega
  | case2 bytes hshort =>
    rw [wordsOf.eq_2 bytes hshort, List.length_nil]
    match bytes, hshort with
    | [], _ => rfl
    | [_], _ => simp
    | [_, _], _ => simp
    | [_, _, _], _ => simp
    | b₀ :: b₁ :: b₂ :: b₃ :: rest, hshort => exact absurd rfl (hshort b₀ b₁ b₂ b₃ rest)

lemma regular_listing (h : s.Regular) {view : MemoryView} {listing : Listing}
    (hlisting : s.listing view = .ok listing) : (Message.disassemblyData listing).Regular := by
  rw [Session.listing] at hlisting
  obtain ⟨memory, hmemory, hlisting⟩ := Message.exists_of_bind hlisting
  dsimp only at hlisting
  split at hlisting
  · next hcount =>
    obtain rfl := Except.ok.inj hlisting
    obtain ⟨text, htext, hdisassembler⟩ := h.disassembler
    refine ⟨?_, ?_, ?_⟩
    · have hlt := view.size.toNat_lt
      change memory.length < _
      rw [length_of_readMemory hmemory]
      omega
    · change (s.disassembler.lines _ _ _).length = memory.length / 4
      rw [hcount, length_wordsOf]
    · change ∀ line ∈ s.disassembler.lines _ _ _, _
      rw [hdisassembler]
      have hascii (address word : UInt32) := (htext address word).ascii
      exact Instruction.plainText_lines hascii h.symbols _ _
  · cases hlisting

lemma regular_watchReport {view : MemoryView} {message : Message}
    (hreport : s.watchReport? view = some message) : message.Regular := by
  simp only [watchReport?] at hreport
  split at hreport
  · next data hdata =>
    obtain rfl := Option.some.inj hreport
    have hlt := view.watchSize.toNat_lt
    rwa [← length_of_readMemory hdata] at hlt
  · cases hreport

lemma regular_stopReport (s : Session) : ∀ message ∈ s.stopReport, message.Regular := by
  -- the state comes first, the watched ranges follow
  refine List.forall_mem_cons.2 ⟨trivial, fun message hmessage => ?_⟩
  obtain ⟨view, -, hreport⟩ := List.mem_filterMap.1 hmessage
  exact regular_watchReport hreport

lemma regular_send (h : s.Regular) {message : Message} (hmessage : message.Regular) :
    (s.send message).Regular := by
  refine ⟨fun m hm => ?_, h.symbols, h.disassembler⟩
  rcases Array.mem_push.1 hm with hm | rfl
  · exact h.sent m hm
  · exact hmessage

lemma regular_pushUpdate (h : s.Regular) : s.pushUpdate.Regular := by
  simp only [pushUpdate]
  split
  · refine ⟨fun m hm => ?_, h.symbols, h.disassembler⟩
    rw [← Array.mem_toList_iff, Array.toList_appendList, List.mem_append,
      Array.mem_toList_iff] at hm
    rcases hm with hm | hm
    · exact h.sent m hm
    · exact regular_stopReport s m hm
  · exact h

lemma regular_reloadSymbols (h : s.Regular) : s.reloadSymbols.Regular := by
  simp only [reloadSymbols]
  split
  · split
    · next symbols hsymbols =>
      -- the new symbols are kept for later listings and sent at once
      have hplain : symbols.Plain := SymbolTable.plain_of_scan hsymbols
      have hregular : Regular { s with invalidated := false, symbols } :=
        ⟨h.sent, hplain, h.disassembler⟩
      exact regular_send hregular hplain
    · exact h
  · exact h

lemma regular_afterStop (h : s.Regular) : s.afterStop.Regular :=
  regular_pushUpdate (regular_reloadSymbols h)

/-! ### Operations -/

lemma regular_clearNextBreakpoint (h : s.Regular) : s.clearNextBreakpoint.Regular := by
  simp only [clearNextBreakpoint]
  split
  · exact h
  · split
    · exact h
    · exact h

lemma regular_recordStop (h : s.Regular) (reason : StopReason) : (s.recordStop reason).Regular := by
  simp only [recordStop]
  split
  · exact h
  · exact h

lemma regular_halt (h : s.Regular) (cause : StopCause) : (s.halt cause).Regular := by
  have hcleared : s.settle.clearNextBreakpoint.Regular := regular_clearNextBreakpoint h
  have hsettled := regular_recordStop hcleared cause.reason
  simp only [halt]
  split
  · exact regular_afterStop (regular_send hsettled trivial)
  · exact regular_afterStop hsettled

lemma regular_resume (h : s.Regular) : s.resume.2.Regular := by
  simp only [resume]
  split
  · exact h
  · split
    · exact h
    · exact h
    · exact h

lemma regular_step (h : s.Regular) : s.step.2.Regular := by
  have hcleared : s.settle.clearNextBreakpoint.Regular := regular_clearNextBreakpoint h
  simp only [step]
  split
  · exact hcleared
  · refine regular_afterStop (regular_recordStop ?_ _)
    exact hcleared

lemma regular_setNextBreakpoint (h : s.Regular) {address : UInt32} {t : Session}
    (ht : s.setNextBreakpoint address = .ok t) : t.Regular := by
  simp only [setNextBreakpoint] at ht
  cases hadd : s.breakpoints.add address s.memory with
  | error fault =>
    rw [hadd] at ht
    cases ht
  | ok added =>
    rw [hadd] at ht
    obtain rfl := Except.ok.inj ht
    cases added with
    | none => exact h
    | some pair => exact h

lemma regular_next (h : s.Regular) : s.next.2.Regular := by
  have hsettled : s.settle.Regular := h
  simp only [next]
  split
  · exact hsettled
  · split
    · split
      · exact regular_resume hsettled
      · split
        · exact hsettled
        · next ht => exact regular_resume (regular_setNextBreakpoint hsettled ht)
    · exact regular_step hsettled

lemma regular_restart (h : s.Regular) : s.restart.2.Regular := by
  have hcleared : s.settle.clearNextBreakpoint.Regular := regular_clearNextBreakpoint h
  simp only [restart]
  split
  · exact regular_resume (regular_afterStop hcleared)
  · exact regular_afterStop hcleared

lemma regular_setBreakpoint (h : s.Regular) (address : UInt32) :
    (s.setBreakpoint address).2.Regular := by
  simp only [setBreakpoint]
  split
  · exact h
  · split
    · exact h
    · exact h
    · exact h

lemma regular_unsetBreakpoint (h : s.Regular) (address : UInt32) :
    (s.unsetBreakpoint address).2.Regular := by
  simp only [unsetBreakpoint]
  split
  · exact h
  · dsimp only
    split
    · exact h
    · exact h

lemma regular_writeMemory (h : s.Regular) (address : UInt32) (data : List UInt8) :
    (s.writeMemory address data).2.Regular := by
  simp only [writeMemory]
  split
  · exact h
  · exact h

lemma regular_advance (h : s.Regular) : s.advance.2.Regular := by
  have hlaunched : s.launchSlice.Regular := by
    simp only [launchSlice]
    split
    · exact h
    · exact h
  simp only [advance]
  split
  · exact h
  · split
    · exact hlaunched
    · exact hlaunched
    · simp only [endSlice]
      split
      · refine regular_halt ?_ _
        exact hlaunched
      · split
        · next hpoll =>
          obtain ⟨-, rfl⟩ := Prod.mk.inj hpoll
          refine regular_halt ?_ _
          exact hlaunched
        · next hpoll =>
          obtain ⟨-, rfl⟩ := Prod.mk.inj hpoll
          exact hlaunched

/-! ### Requests of the client -/

lemma regular_connect (h : s.Regular) : s.connect.2.Regular := by
  simp only [connect]
  split
  · exact regular_resume (regular_pushUpdate h)
  · exact regular_pushUpdate h

lemma regular_watch (h : s.Regular) (view : MemoryView) : (s.watch view).2.Regular := by
  simp only [watch]
  split
  · exact h
  · split
    · exact h
    · next data hdata =>
      refine regular_send h ?_
      change data.length < _
      rw [length_of_readMemory hdata]
      exact view.size.toNat_lt

lemma regular_handleMessage (h : s.Regular) (message : Message) :
    (s.handleMessage message).2.Regular := by
  cases message with
  | connect handshake => exact regular_connect h
  | stop => exact regular_halt h .requested
  | resume => exact regular_resume h
  | step => exact regular_step h
  | next => exact regular_next h
  | restart => exact regular_restart h
  | setBreakpoint address => exact regular_setBreakpoint h address
  | unsetBreakpoint address => exact regular_unsetBreakpoint h address
  | memoryWatch view => exact regular_watch h view
  | unwatch id =>
    change (s.unwatch id).2.Regular
    simp only [unwatch]
    split
    · exact h
    · exact h
  | disassembly view =>
    simp only [handleMessage]
    split
    · exact h
    · next listing hlisting => exact regular_send h (regular_listing h hlisting)
  | tapeRequest request =>
    refine regular_send h ?_
    change ((s.tapes.names.drop _).take request.size.toNat).length < _
    have hlt := request.size.toNat_lt
    rw [List.length_take]
    omega
  | tapeLoad index =>
    change (s.loadTape index).2.Regular
    simp only [loadTape]
    split
    · exact h
    · exact h
  | symbolData symbols =>
    cases symbols with
    | nil => exact regular_send h h.symbols
    | cons symbol rest => exact h
  | _ => exact h

/-! ### Commands of GDB -/

lemma regular_goTo (h : s.Regular) (address : Option UInt32) : (s.goTo address).Regular := by
  cases address with
  | none => exact h
  | some address => exact h

lemma regular_insertPoint (h : s.Regular) (point : Point) : (s.insertPoint point).2.Regular := by
  obtain ⟨kind, address, length⟩ := point
  have hwatch (kind : PointKind) : (s.insertWatchpoint ⟨kind, address, length⟩).2.Regular := by
    simp only [insertWatchpoint]
    split
    · exact h
    · split
      · exact h
      · exact h
  cases kind with
  | software => exact regular_setBreakpoint h address
  | hardware => exact regular_setBreakpoint h address
  | read => exact h
  | write => exact hwatch .write
  | access => exact hwatch .access

lemma regular_removePoint (h : s.Regular) (point : Point) : (s.removePoint point).2.Regular := by
  obtain ⟨kind, address, length⟩ := point
  cases kind with
  | software => exact regular_unsetBreakpoint h address
  | hardware => exact regular_unsetBreakpoint h address
  | _ => exact h

lemma regular_executeSerial (h : s.Regular) (command : SerialCommand) :
    (s.executeSerial command).2.Regular := by
  cases command with
  | writeRegister index data =>
    change (s.writeRegister index data).2.Regular
    simp only [writeRegister]
    split
    · exact h
    · split
      · exact h
      · exact h
  | readMemory address length =>
    simp only [executeSerial]
    split
    · exact h
    · exact h
  | writeMemory address data => exact regular_writeMemory h address data
  | resume address =>
    have hresume := regular_resume (regular_goTo h address)
    simp only [executeSerial]
    split
    · next ht => rwa [ht] at hresume
    · next ht => rwa [ht] at hresume
  | step address =>
    have hstep := regular_step (regular_goTo h address)
    simp only [executeSerial]
    split
    · next ht => rwa [ht] at hstep
    · next ht => rwa [ht] at hstep
    · next ht => rwa [ht] at hstep
  | insertPoint point => exact regular_insertPoint h point
  | removePoint point => exact regular_removePoint h point
  | _ => exact h

lemma regular_handleSerial (h : s.Regular) (command : SerialCommand) :
    (s.handleSerial command).Regular := by
  simp only [handleSerial]
  split
  · next address =>
    have hexecute := regular_executeSerial (s := s.setOwesStop true) h (.resume address)
    split
    · next ht => rwa [ht] at hexecute
    · next ht => rwa [ht] at hexecute
    · next ht => rwa [ht] at hexecute
  · have hexecute := regular_executeSerial h command
    split
    · next ht => rwa [ht] at hexecute
    · next ht => rwa [ht] at hexecute
    · next ht => rwa [ht] at hexecute

/-! ### Runs -/

lemma regular_handle (h : s.Regular) (event : Event) : (s.handle event).2.Regular := by
  cases event with
  | message message => exact regular_handleMessage h message
  | peerLost => exact h
  | attached =>
    refine regular_halt ?_ .attached
    exact h
  | command command => exact regular_handleSerial h command
  | interrupt =>
    change s.interrupt.Regular
    simp only [interrupt]
    split
    · exact regular_halt h .interrupted
    · exact h
  | detached =>
    change s.detach.2.Regular
    simp only [detach]
    split
    · refine regular_resume ?_
      exact h
    · exact h

lemma regular_act (h : s.Regular) (a : Action) : (s.act a).Regular := by
  cases a with
  | event event => exact regular_handle h event
  | execute command => exact regular_executeSerial h command
  | advance => exact regular_advance h
  | _ => exact h

lemma regular_run (h : s.Regular) (actions : List Action) : (s.run actions).Regular := by
  induction actions generalizing s with
  | nil => exact h
  | cons a rest ih => exact ih (regular_act h a)

lemma regular_create (scheduler : Scheduler) (config : Config) {disassembler : Disassembler}
    (h : disassembler.Plain) (tapes : Tapes) (connected : Bool) :
    (create scheduler config disassembler tapes connected).Regular := by
  have hsent : ∀ message ∈ (#[] : Array Message), message.Regular :=
    fun _ hmem => absurd hmem (Array.not_mem_empty _)
  simp only [create]
  split
  · next symbols hsymbols => exact ⟨hsent, SymbolTable.plain_of_scan hsymbols, h⟩
  · exact ⟨hsent, fun _ hmem => absurd hmem List.not_mem_nil, h⟩

/-- Of the messages that a session sends, those arrive that fit a frame and whose texts keep
clear of what parts them. -/
theorem survivesWire_iff_of_sent (scheduler : Scheduler) (config : Config)
    {text : UInt32 → UInt32 → String}
    (htext : ∀ address word, Message.PlainText (some '\n') (text address word)) (tapes : Tapes)
    (connected : Bool) (actions : List Action) {message : Message}
    (hsent : message ∈
      ((create scheduler config (.ofText text) tapes connected).run actions).sent) :
    message.SurvivesWire ↔ message.encode.length ≤ maxFrameLength ∧ message.Separable := by
  have hplain : (Disassembler.ofText text).Plain := ⟨text, htext, rfl⟩
  have hrun := regular_run (regular_create scheduler config hplain tapes connected) actions
  rw [Message.survivesWire_iff, (hrun.sent message hsent).wellFormed_iff, and_comm]

/-- The listing of two words that do nothing arrives. -/
theorem listing_survivesWire :
    let view : MemoryView := { id := 1, start := 0, size := 8, watchStart := 0, watchSize := 0 }
    let s := (create { machine := Machine.create 16 [] } { symbolsAddress := 16 }
      (.ofText fun _ _ => "andeq r0, r0, r0") {} true).run [.event (.message (.disassembly view))]
    let message : Message := .disassemblyData
      { start := 0, memory := [0, 0, 0, 0, 0, 0, 0, 0],
        lines := ["00000000: 00000000  andeq r0, r0, r0", "00000004: 00000000  andeq r0, r0, r0"] }
    message ∈ s.sent ∧ message.SurvivesWire := by
  intro view s message
  have htext : Message.PlainText (some '\n') "andeq r0, r0, r0" := by decide
  have hsent : message ∈ s.sent := by decide +kernel
  refine ⟨hsent, ?_⟩
  refine (survivesWire_iff_of_sent _ _ (fun _ _ => htext) {} true _ hsent).2 ⟨?_, ?_⟩
  · decide +kernel
  · change ∀ line ∈ ["00000000: 00000000  andeq r0, r0, r0",
      "00000004: 00000000  andeq r0, r0, r0"], '\n' ∉ line.toList
    decide

/-- The name of a tape that is not ASCII is sent, and does not arrive. -/
theorem tape_name_lost_on_wire :
    let s := (create { machine := Machine.create 16 [] } { symbolsAddress := 16 } .standard
      { names := ["é"] } true).run
        [.event (.message (.tapeRequest { id := 1, start := 0, size := 1 }))]
    let message : Message := .tapeList { id := 1, start := 0, total := 1, names := ["é"] }
    message ∈ s.sent ∧ ¬ message.SurvivesWire := by
  intro s message
  have hsent : message ∈ s.sent := by decide +kernel
  refine ⟨hsent, ?_⟩
  intro hsurvives
  have hname : Message.PlainText (some '\x00') "é" :=
    (Message.survivesWire_iff.1 hsurvives).1.2 "é" List.mem_cons_self
  exact absurd hname (by decide)

end Session
end RemoteDebugger
