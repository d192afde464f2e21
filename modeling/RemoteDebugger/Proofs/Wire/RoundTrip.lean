/-
# Reading what was written

A well-formed message is read from the bytes that it is written as.  If its fields have a
fixed length it is read also with more bytes behind them, and a state also with another byte
that says that the processor waits.  There are no other bytes that it is read from, and a
message that is not well-formed is read from none at all: `decode_eq_ok_iff` says all of
this at once.
-/
import RemoteDebugger.Proofs.Wire.Fields

namespace RemoteDebugger
namespace Message

/-! ### The bytes that stand for a message -/

/-- The bytes that are read like the written form of a message of a kind.  Fields of a fixed
length may have anything behind them, and in a state every byte but zero says that the
processor waits; other messages are read from their written form only. -/
def Kind.Admits (kind : Kind) (written bytes : List UInt8) : Prop :=
  match kind with
  | .connect | .memoryData | .disassemblyData | .tapeList | .symbolData => bytes = written
  | .state => ∃ front flag trailing,
      written = front ++ [if flag = 0 then 0 else 0x31] ∧ bytes = front ++ flag :: trailing
  | .disconnect | .stop | .resume | .step | .restart | .next | .tapeUnload | .setBreakpoint
  | .unsetBreakpoint | .unwatch | .tapeLoad | .memoryWatch | .disassembly | .tapeRequest =>
    ∃ trailing, bytes = written ++ trailing

namespace Kind.Admits

variable {kind : Kind} {front written bytes : List UInt8}

lemma append_left (h : kind.Admits written bytes) (front : List UInt8) :
    kind.Admits (front ++ written) (front ++ bytes) := by
  cases kind with
  | connect | memoryData | disassemblyData | tapeList | symbolData =>
    exact congrArg (front ++ ·) h
  | state =>
    obtain ⟨fields, flag, trailing, rfl, rfl⟩ := h
    exact ⟨front ++ fields, flag, trailing, (List.append_assoc ..).symm,
      (List.append_assoc ..).symm⟩
  | _ =>
    obtain ⟨trailing, rfl⟩ := h
    exact ⟨trailing, (List.append_assoc ..).symm⟩

/-- What stands in front of a form that is not empty stands in front of all bytes that are
read like it. -/
lemma exists_of_append (h : kind.Admits (front ++ written) bytes)
    (hne : kind = .state → written ≠ []) :
    ∃ rest, bytes = front ++ rest ∧ kind.Admits written rest := by
  cases kind with
  | connect | memoryData | disassemblyData | tapeList | symbolData => exact ⟨written, h, rfl⟩
  | state =>
    obtain ⟨fields, flag, trailing, hwritten, rfl⟩ := h
    -- the mark is the last byte of the form, so it does not stand in front
    obtain ⟨fields', last, rfl⟩ : ∃ fields' last, written = fields' ++ [last] :=
      ⟨_, _, (List.dropLast_concat_getLast (hne rfl)).symm⟩
    rw [← List.append_assoc] at hwritten
    obtain ⟨rfl, hlast⟩ := List.append_inj' hwritten rfl
    exact ⟨fields' ++ flag :: trailing, List.append_assoc .., fields', flag, trailing,
      congrArg (fields' ++ ·) hlast, rfl⟩
  | _ =>
    obtain ⟨trailing, rfl⟩ := h
    exact ⟨written ++ trailing, List.append_assoc .., trailing, rfl⟩

lemma length_le (h : kind.Admits written bytes) : written.length ≤ bytes.length := by
  cases kind with
  | connect | memoryData | disassemblyData | tapeList | symbolData => exact (congrArg _ h).ge
  | state =>
    obtain ⟨fields, flag, trailing, rfl, rfl⟩ := h
    simp
  | _ =>
    obtain ⟨trailing, rfl⟩ := h
    simp

end Kind.Admits

/-- Every message is read like its own written form. -/
lemma admits_body (message : Message) : message.kind.Admits message.body message.body := by
  cases message with
  | connect | memoryData | disassemblyData | tapeList | symbolData => rfl
  | state snapshot =>
    refine ⟨words snapshot.registers.toList ++ words [snapshot.mode, snapshot.pc],
      if snapshot.waiting then 0x31 else 0, [], ?_, rfl⟩
    cases hwaiting : snapshot.waiting with
    | false => simp [body, hwaiting]
    | true => simp [body, hwaiting]
  | _ => exact ⟨[], (List.append_nil _).symm⟩

/-! ### From the fields to the message -/

lemma ofBody_disassemblyData {listing : Listing} (h : (disassemblyData listing).WellFormed) :
    ofBody .disassemblyData (disassemblyData listing).body = .ok (.disassemblyData listing) := by
  obtain ⟨start, memory, lines⟩ := listing
  obtain ⟨hmemory, hlength, hlines⟩ := h
  dsimp only at hmemory hlength hlines
  have hbody : (disassemblyData ⟨start, memory, lines⟩).body =
      Word.bigEndian start ++ (count memory.length ++ (memory ++ joined 0x0a lines)) := by
    simp [body]
  simp only [hbody, ofBody, count, takeWord_append, toNat_count hmemory, takeBytes_append,
    bind, Except.bind]
  -- no line and one empty line are the same text; the memory says which of them it is
  cases lines with
  | nil =>
    have hshort : memory.length < 4 := by
      rw [List.length_nil] at hlength
      omega
    simp only [joined, List.map_nil, List.intercalate_nil, List.isEmpty_nil, Bool.true_and,
      hshort, decide_true, if_true, pure, Except.pure, checkCount, hlength]
  | cons line rest =>
    have hlong : ¬ memory.length < 4 := by
      rw [List.length_cons] at hlength
      omega
    simp only [hlong, decide_false, Bool.and_false, Bool.false_eq_true, if_false,
      asTexts_joined (by decide : (0x0a : UInt8) < 0x80) (List.cons_ne_nil line rest) hlines,
      checkCount, hlength, if_true]
    rfl

lemma ofBody_tapeList {window : TapeWindow} (h : (tapeList window).WellFormed) :
    ofBody .tapeList (tapeList window).body = .ok (.tapeList window) := by
  obtain ⟨id, start, total, names⟩ := window
  obtain ⟨hlength, hnames⟩ := h
  dsimp only at hlength hnames
  have hbody : (tapeList ⟨id, start, total, names⟩).body =
      Word.bigEndian id ++ (Word.bigEndian start ++ (count names.length ++
        (Word.bigEndian total ++ joined 0 names))) := by
    simp [body, words]
  simp only [hbody, ofBody, count, takeWord_append, bind, Except.bind]
  cases names with
  | nil => rfl
  | cons name rest =>
    -- a count that fits does not become zero by losing its upper part
    have hcount : UInt32.ofNat (name :: rest).length ≠ 0 := by
      intro hzero
      have hcount := toNat_count hlength
      rw [hzero] at hcount
      cases hcount
    simp only [hcount, decide_false, Bool.false_and, Bool.false_eq_true, if_false,
      asTexts_joined (by decide : (0 : UInt8) < 0x80) (List.cons_ne_nil name rest) hnames,
      checkCount_toNat _ hlength]
    rfl

/-- A state is read with any byte that says as much as its own whether it waits. -/
lemma ofBody_state {snapshot : Snapshot} {bytes : List UInt8}
    (h : Kind.state.Admits (state snapshot).body bytes) :
    ofBody .state bytes = .ok (.state snapshot) := by
  obtain ⟨registers, mode, pc, waiting⟩ := snapshot
  obtain ⟨front, flag, trailing, hbody, rfl⟩ := h
  obtain ⟨rfl, hflag⟩ := List.append_inj' hbody rfl
  -- the mark that is written is zero for both or for neither
  have hwaiting : (flag != 0) = waiting := by
    cases waiting with
    | false =>
      have hzero : flag = 0 := by
        by_contra hne
        simp [hne] at hflag
      simp [hzero]
    | true =>
      have hne : flag ≠ 0 := by
        rintro rfl
        simp at hflag
      simpa using hne
  have hbytes : words registers.toList ++ words [mode, pc] ++ flag :: trailing =
      words registers.toList ++ (Word.bigEndian mode ++ (Word.bigEndian pc ++
        flag :: trailing)) := by
    simp [words]
  rw [hbytes]
  simp only [ofBody, takeWords_append, takeWord_append, takeByte, bind, Except.bind, hwaiting]
  rfl

lemma ofBody_connect {handshake : Handshake} (h : (connect handshake).WellFormed) :
    ofBody .connect (connect handshake).body = .ok (connect handshake) := by
  obtain ⟨host, port⟩ := handshake
  have hhost : asText "handshake host" (Text.utf8 host) = .ok host := by
    rw [asText, ofAscii?_utf8 h]
  change (takeHalf _ (_ :: _ :: Text.utf8 host) >>= _) = _
  simp only [takeHalf_port, bind, Except.bind, hhost]
  rfl

lemma ofBody_memoryData {contents : MemoryContents} (h : (memoryData contents).WellFormed) :
    ofBody .memoryData (memoryData contents).body = .ok (memoryData contents) := by
  obtain ⟨id, start, data⟩ := contents
  have hbody : (memoryData ⟨id, start, data⟩).body =
      Word.bigEndian id ++ (Word.bigEndian start ++ (count data.length ++ data)) := by
    simp [body, words]
  simp only [hbody, ofBody, count, takeWord_append, bind, Except.bind, checkCount_toNat _ h]
  rfl

lemma ofBody_tapeRequest (request : TapeRequest) (trailing : List UInt8) :
    ofBody .tapeRequest ((tapeRequest request).body ++ trailing) = .ok (tapeRequest request) := by
  obtain ⟨id, start, size⟩ := request
  have hbody : (tapeRequest ⟨id, start, size⟩).body ++ trailing =
      Word.bigEndian id ++ (Word.bigEndian start ++ (Word.bigEndian size ++ trailing)) := by
    simp [body, words]
  simp only [hbody, ofBody, takeWord_append, bind, Except.bind]
  rfl

/-- A well-formed message is read from all bytes that are read like its fields. -/
lemma ofBody_of_admits {message : Message} {bytes : List UInt8} (h : message.WellFormed)
    (hbytes : message.kind.Admits message.body bytes) :
    ofBody message.kind bytes = .ok message := by
  cases message with
  | connect handshake =>
    obtain rfl := hbytes
    exact ofBody_connect h
  | disconnect => rfl
  | stop => rfl
  | resume => rfl
  | step => rfl
  | restart => rfl
  | next => rfl
  | tapeUnload => rfl
  | setBreakpoint value | unsetBreakpoint value | unwatch value | tapeLoad value =>
    obtain ⟨trailing, rfl⟩ := hbytes
    simp only [kind, body, ofBody, takeWord_append, bind, Except.bind]
    rfl
  | memoryData contents =>
    obtain rfl := hbytes
    exact ofBody_memoryData h
  | memoryWatch view | disassembly view =>
    obtain ⟨trailing, rfl⟩ := hbytes
    simp only [kind, body, ofBody, takeView_append, bind, Except.bind]
    rfl
  | state snapshot => exact ofBody_state hbytes
  | disassemblyData listing =>
    obtain rfl := hbytes
    exact ofBody_disassemblyData h
  | tapeRequest request =>
    obtain ⟨trailing, rfl⟩ := hbytes
    exact ofBody_tapeRequest request trailing
  | tapeList window =>
    obtain rfl := hbytes
    exact ofBody_tapeList h
  | symbolData symbols =>
    obtain rfl := hbytes
    simp only [kind, body, ofBody, asSymbols_flatMap h, bind, Except.bind]
    rfl

/-! ### From the message to the fields -/

/-- What a message is that can be read from the fields of a kind: a well-formed one of that
kind, and the fields are read like its own. -/
structure ReadFrom (kind : Kind) (bytes : List UInt8) (message : Message) : Prop where
  /-- The kind of the message. -/
  kind : message.kind = kind
  /-- The message is well-formed. -/
  wellFormed : message.WellFormed
  /-- The fields are read like those of the message. -/
  admits : message.kind.Admits message.body bytes

/-- Counted texts that are read, or left out where there is nothing to read. -/
lemma exists_texts {field counted : String} {separator : UInt8} {bytes : List UInt8}
    {declared : Nat} {skip : Bool} {make : List String → Message} {message : Message}
    (h : (if skip then do
        let texts ← pure []
        checkCount counted declared texts.length
        pure (make texts)
      else do
        let texts ← asTexts field separator bytes
        checkCount counted declared texts.length
        pure (make texts)) = .ok message) (hskip : skip = true → bytes = []) :
    ∃ texts : List String, joined separator texts = bytes ∧
      (∀ text ∈ texts, PlainText (some (Char.ofUInt8 separator)) text) ∧
        texts.length = declared ∧ message = make texts := by
  split at h
  · next hempty =>
    obtain ⟨_, hnil, h⟩ := exists_of_bind h
    obtain rfl := Except.ok.inj hnil
    obtain ⟨_, hcount, h⟩ := exists_of_bind h
    exact ⟨[], (hskip hempty).symm, fun _ hmem => absurd hmem List.not_mem_nil,
      eq_of_checkCount hcount, (Except.ok.inj h).symm⟩
  · obtain ⟨texts, htexts, h⟩ := exists_of_bind h
    obtain ⟨_, hcount, h⟩ := exists_of_bind h
    obtain ⟨hjoined, hplain⟩ := asTexts_eq_ok htexts
    exact ⟨texts, hjoined, hplain, eq_of_checkCount hcount, (Except.ok.inj h).symm⟩

lemma readFrom_memoryData {bytes : List UInt8} {message : Message}
    (h : ofBody .memoryData bytes = .ok message) : ReadFrom .memoryData bytes message := by
  obtain ⟨⟨id, r₁⟩, hid, h⟩ := exists_of_bind h
  obtain ⟨⟨start, r₂⟩, hstart, h⟩ := exists_of_bind h
  obtain ⟨⟨size, data⟩, hsize, h⟩ := exists_of_bind h
  obtain ⟨_, hcount, h⟩ := exists_of_bind h
  obtain rfl := Except.ok.inj h
  have hlength := eq_of_checkCount hcount
  refine ⟨rfl, ?_, ?_⟩
  · have hlt := size.toNat_lt
    rwa [← hlength] at hlt
  · change bytes = _
    rw [takeWord_eq_ok hid, takeWord_eq_ok hstart, takeWord_eq_ok hsize]
    simp [body, words, count, hlength]

lemma readFrom_state {bytes : List UInt8} {message : Message}
    (h : ofBody .state bytes = .ok message) : ReadFrom .state bytes message := by
  obtain ⟨⟨registers, r₁⟩, hregisters, h⟩ := exists_of_bind h
  obtain ⟨⟨mode, r₂⟩, hmode, h⟩ := exists_of_bind h
  obtain ⟨⟨pc, r₃⟩, hpc, h⟩ := exists_of_bind h
  obtain ⟨⟨flag, trailing⟩, hflag, h⟩ := exists_of_bind h
  obtain rfl := Except.ok.inj h
  refine ⟨rfl, trivial, words registers.toList ++ words [mode, pc], flag, trailing, ?_, ?_⟩
  · simp [body]
  · rw [takeWords_eq_ok hregisters, takeWord_eq_ok hmode, takeWord_eq_ok hpc, takeByte_eq_ok hflag]
    simp [words]

lemma readFrom_disassemblyData {bytes : List UInt8} {message : Message}
    (h : ofBody .disassemblyData bytes = .ok message) :
    ReadFrom .disassemblyData bytes message := by
  obtain ⟨⟨start, r₁⟩, hstart, h⟩ := exists_of_bind h
  obtain ⟨⟨size, r₂⟩, hsize, h⟩ := exists_of_bind h
  obtain ⟨⟨memory, text⟩, hmemory, h⟩ := exists_of_bind h
  obtain ⟨hsplit, hlength⟩ := takeBytes_eq_ok hmemory
  obtain ⟨lines, hjoined, hlines, hcount, rfl⟩ := exists_texts h fun hskip =>
    List.isEmpty_iff.1 (Bool.and_eq_true_iff.1 hskip).1
  refine ⟨rfl, ⟨?_, ?_, hlines⟩, ?_⟩
  · exact hlength ▸ size.toNat_lt
  · rw [hcount, ← hlength]
  · change bytes = _
    rw [takeWord_eq_ok hstart, takeWord_eq_ok hsize, hsplit, ← hjoined]
    simp [body, count, hlength]

lemma readFrom_tapeList {bytes : List UInt8} {message : Message}
    (h : ofBody .tapeList bytes = .ok message) : ReadFrom .tapeList bytes message := by
  obtain ⟨⟨id, r₁⟩, hid, h⟩ := exists_of_bind h
  obtain ⟨⟨start, r₂⟩, hstart, h⟩ := exists_of_bind h
  obtain ⟨⟨size, r₃⟩, hsize, h⟩ := exists_of_bind h
  obtain ⟨⟨total, text⟩, htotal, h⟩ := exists_of_bind h
  obtain ⟨names, hjoined, hnames, hcount, rfl⟩ := exists_texts h fun hskip =>
    List.isEmpty_iff.1 (Bool.and_eq_true_iff.1 hskip).2
  refine ⟨rfl, ⟨?_, hnames⟩, ?_⟩
  · exact hcount ▸ size.toNat_lt
  · change bytes = _
    rw [takeWord_eq_ok hid, takeWord_eq_ok hstart, takeWord_eq_ok hsize, takeWord_eq_ok htotal,
      ← hjoined]
    simp [body, words, count, hcount]

lemma readFrom_of_ofBody {kind : Kind} {bytes : List UInt8} {message : Message}
    (h : ofBody kind bytes = .ok message) : ReadFrom kind bytes message := by
  cases kind with
  | connect =>
    obtain ⟨⟨port, rest⟩, hport, h⟩ := exists_of_bind h
    obtain ⟨host, hhost, h⟩ := exists_of_bind h
    obtain rfl := Except.ok.inj h
    obtain ⟨rfl, hplain⟩ := utf8_of_asText hhost
    exact ⟨rfl, hplain, takeHalf_eq_ok hport⟩
  | disconnect | stop | resume | step | restart | next | tapeUnload =>
    obtain rfl := Except.ok.inj h
    exact ⟨rfl, trivial, bytes, rfl⟩
  | setBreakpoint | unsetBreakpoint | unwatch | tapeLoad =>
    obtain ⟨⟨value, rest⟩, hvalue, h⟩ := exists_of_bind h
    obtain rfl := Except.ok.inj h
    exact ⟨rfl, trivial, rest, takeWord_eq_ok hvalue⟩
  | memoryData => exact readFrom_memoryData h
  | memoryWatch | disassembly =>
    obtain ⟨⟨view, rest⟩, hview, h⟩ := exists_of_bind h
    obtain rfl := Except.ok.inj h
    exact ⟨rfl, trivial, rest, takeView_eq_ok hview⟩
  | state => exact readFrom_state h
  | disassemblyData => exact readFrom_disassemblyData h
  | tapeRequest =>
    obtain ⟨⟨id, r₁⟩, hid, h⟩ := exists_of_bind h
    obtain ⟨⟨start, r₂⟩, hstart, h⟩ := exists_of_bind h
    obtain ⟨⟨size, rest⟩, hsize, h⟩ := exists_of_bind h
    obtain rfl := Except.ok.inj h
    refine ⟨rfl, trivial, rest, ?_⟩
    rw [takeWord_eq_ok hid, takeWord_eq_ok hstart, takeWord_eq_ok hsize]
    simp [body, words]
  | tapeList => exact readFrom_tapeList h
  | symbolData =>
    obtain ⟨symbols, hsymbols, h⟩ := exists_of_bind h
    obtain rfl := Except.ok.inj h
    obtain ⟨rfl, hplain⟩ := asSymbols_eq_ok hsymbols
    exact ⟨rfl, hplain, rfl⟩

/-! ### Messages -/

lemma decode_bigEndian_tag (kind : Kind) (bytes : List UInt8) :
    decode (Word.bigEndian kind.tag ++ bytes) = ofBody kind bytes := by
  rw [decode]
  dsimp only [bind, Except.bind]
  rw [takeWord_append]
  dsimp only
  rw [Kind.ofTag?_tag]

/-- Bytes are read as a message if and only if it is well-formed and they are read like its
written form. -/
theorem decode_eq_ok_iff {bytes : List UInt8} {message : Message} :
    decode bytes = .ok message ↔
      message.WellFormed ∧ message.kind.Admits message.encode bytes := by
  constructor
  · intro h
    obtain ⟨⟨tag, rest⟩, htag, h⟩ := exists_of_bind h
    dsimp only at h
    split at h
    · next kind hkind =>
      have hread := readFrom_of_ofBody h
      refine ⟨hread.wellFormed, ?_⟩
      rw [takeWord_eq_ok htag, encode, hread.kind, Kind.tag_of_ofTag? hkind]
      exact (hread.kind ▸ hread.admits).append_left _
    · cases h
  · rintro ⟨hwell, hadmits⟩
    have hne : message.kind = .state → message.body ≠ [] := by
      intro hkind hnil
      cases message with
      | state snapshot => simp [body] at hnil
      | _ => cases hkind
    obtain ⟨rest, rfl, hrest⟩ := hadmits.exists_of_append hne
    rw [decode_bigEndian_tag, ofBody_of_admits hwell hrest]

/-- Every well-formed message is read from the bytes that it is written as. -/
theorem decode_encode {message : Message} (h : message.WellFormed) :
    decode message.encode = .ok message :=
  decode_eq_ok_iff.2 ⟨h, (admits_body message).append_left _⟩

/-- What is read is a well-formed message, and written in no more bytes than were read. -/
theorem wellFormed_of_decode {bytes : List UInt8} {message : Message}
    (h : decode bytes = .ok message) :
    message.WellFormed ∧ message.encode.length ≤ bytes.length := by
  obtain ⟨hwell, hadmits⟩ := decode_eq_ok_iff.1 h
  exact ⟨hwell, hadmits.length_le⟩

/-- The well-formed messages are those that are read from what they are written as. -/
theorem decode_encode_eq_ok_iff (message : Message) :
    decode message.encode = .ok message ↔ message.WellFormed := by
  have hadmits : message.kind.Admits message.encode message.encode :=
    (admits_body message).append_left _
  rw [decode_eq_ok_iff]
  exact and_iff_left hadmits

/-- What is read is read again from its own written form, and was read from bytes that are
read like this form, any of which would have done. -/
theorem admits_encode_of_decode {bytes : List UInt8} {message : Message}
    (h : decode bytes = .ok message) :
    decode message.encode = .ok message ∧ message.kind.Admits message.encode bytes ∧
      ∀ other, message.kind.Admits message.encode other → decode other = .ok message := by
  obtain ⟨hwell, hadmits⟩ := decode_eq_ok_iff.1 h
  exact ⟨decode_encode hwell, hadmits, fun _ hother => decode_eq_ok_iff.2 ⟨hwell, hother⟩⟩

/-- A waiting processor's state is read with seven for the mark and with bytes behind it. -/
theorem decode_state_with_other_mark :
    let snapshot : Snapshot :=
      { registers := Vector.replicate 16 5, mode := 0x13, pc := 0x8000, waiting := true }
    let bytes := (Message.state snapshot).encode.dropLast ++ [7, 0xff, 0x31]
    decode bytes = .ok (.state snapshot) ∧
      decode (Message.state snapshot).encode = .ok (.state snapshot) ∧
      Kind.state.Admits (Message.state snapshot).encode bytes := by
  intro snapshot bytes
  have hread : decode bytes = .ok (.state snapshot) := by decide
  obtain ⟨hencode, hadmits, -⟩ := admits_encode_of_decode hread
  exact ⟨hread, hencode, hadmits⟩

end Message
end RemoteDebugger
