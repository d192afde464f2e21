/-
# What is read as a command

The commands that read and write registers and memory, let the machine run and set points have
*fields*: addresses, lengths, numbers of registers and signals, and data in hexadecimal.
`Layout` says how a payload is made up of the letter of such a command, its fields and the
separators between them, whatever the fields are.

A payload should be read as a command if it is laid out so and every field is written in
hexadecimal digits only, and be malformed otherwise (`FollowsGrammar`).  Fields are read as
numerals, though, and numerals may begin with a plus sign.  So a payload is read if it is laid
out as a command whose fields are digits with such signs (`outcome_parse`, `parse_of_layout`), and
the grammar holds of all payloads but those that are read with a plus sign in a field
(`followsGrammar_iff`).
-/
import RemoteDebugger.Proofs.Serial.Argument

namespace RemoteDebugger
namespace SerialCommand

open Numeral (Spells SpellsSigned plus)

/-- A field of a command: its text and what the text stands for. -/
inductive Field where
  /-- A number. -/
  | number (text : List UInt8) (n : Nat)
  /-- Data. -/
  | data (text bytes : List UInt8)

namespace Field

/-- The text of a field. -/
def text : Field → List UInt8
  | .number text _ => text
  | .data text _ => text

/-- Whether a field is written in hexadecimal digits only: for a number at least one, for data
two for each byte. -/
def Plain : Field → Prop
  | .number text n => Spells 16 text n
  | .data text bytes => Hex.Writes text bytes

/-- Whether a field is written as it may be to be read: with plus signs in front of numbers and
pairs. -/
def Readable : Field → Prop
  | .number text n => SpellsSigned 16 text n
  | .data text bytes => Hex.Pairs text bytes

variable {field : Field}

lemma Plain.readable (h : field.Plain) : field.Readable := by
  cases field with
  | number text n => exact .plain h
  | data text bytes => exact Hex.Writes.pairs h

lemma Readable.plain_iff (h : field.Readable) : field.Plain ↔ plus ∉ field.text := by
  cases field with
  | number text n => exact SpellsSigned.spells_iff h
  | data text bytes => exact Hex.Pairs.writes_iff h

lemma Readable.isDigit_or_eq (h : field.Readable) :
    ∀ code ∈ field.text, Numeral.IsDigit 16 code ∨ code = plus := by
  cases field with
  | number text n => exact SpellsSigned.isDigit_or_eq h
  | data text bytes => exact Hex.Pairs.isDigit_or_eq h

end Field

/-- The two letters that let the machine run, without and with a signal, and what they do. -/
inductive Runs : UInt8 → UInt8 → (Option UInt32 → SerialCommand) → Prop
  /-- `c` and `C`. -/
  | resume : Runs 0x63 0x43 .resume
  /-- `s` and `S`. -/
  | step : Runs 0x73 0x53 .step

/-- The letters of points, and what they do. -/
inductive Points : UInt8 → (Point → SerialCommand) → Prop
  /-- `Z`. -/
  | insert : Points 0x5a .insertPoint
  /-- `z`. -/
  | remove : Points 0x7a .removePoint

/-- How payloads of commands with fields are laid out, and the fields in them. -/
inductive Layout : List UInt8 → SerialCommand → List Field → Prop
  /-- `G` and data. -/
  | writeRegisters (digits data : List UInt8) :
    Layout (0x47 :: digits) (.writeRegisters data) [.data digits data]
  /-- `p` and a register. -/
  | readRegister (index : List UInt8) (i : UInt32) :
    Layout (0x70 :: index) (.readRegister i.toNat) [.number index i.toNat]
  /-- `P`, a register, an equals sign and data. -/
  | writeRegister (index : List UInt8) (i : UInt32) (digits data : List UInt8) :
    Layout (0x50 :: (index ++ 0x3d :: digits)) (.writeRegister i.toNat data)
      [.number index i.toNat, .data digits data]
  /-- `m`, an address, a comma and a length. -/
  | readMemory (address : List UInt8) (a : UInt32) (length : List UInt8) (n : UInt32) :
    Layout (0x6d :: (address ++ 0x2c :: length)) (.readMemory a n.toNat)
      [.number address a.toNat, .number length n.toNat]
  /-- `M`, an address, a comma, a length, a colon and data of this length. -/
  | hexWrite (address : List UInt8) (a : UInt32) (length digits data : List UInt8)
    (hlength : data.length < 2 ^ 32) :
    Layout (0x4d :: (address ++ 0x2c :: (length ++ 0x3a :: digits))) (.writeMemory a data)
      [.number address a.toNat, .number length data.length, .data digits data]
  /-- `X`, an address, a comma, a length, a colon and escaped data of this length. -/
  | binaryWrite (address : List UInt8) (a : UInt32) (length escaped data : List UInt8)
    (hdata : Packet.unescape escaped = .ok data) (hlength : data.length < 2 ^ 32) :
    Layout (0x58 :: (address ++ 0x2c :: (length ++ 0x3a :: escaped))) (.writeMemory a data)
      [.number address a.toNat, .number length data.length]
  /-- A letter alone. -/
  | run {letter signalled : UInt8} {command : Option UInt32 → SerialCommand}
    (h : Runs letter signalled command) : Layout [letter] (command none) []
  /-- A letter and an address. -/
  | runFrom {letter signalled : UInt8} {command : Option UInt32 → SerialCommand}
    (h : Runs letter signalled command) (address : List UInt8) (a : UInt32) :
    Layout (letter :: address) (command (some a)) [.number address a.toNat]
  /-- A letter and a signal. -/
  | runSignal {letter signalled : UInt8} {command : Option UInt32 → SerialCommand}
    (h : Runs letter signalled command) (signal : List UInt8) (n : UInt32) :
    Layout (signalled :: signal) (command none) [.number signal n.toNat]
  /-- A letter, a signal, a semicolon and an address. -/
  | runSignalFrom {letter signalled : UInt8} {command : Option UInt32 → SerialCommand}
    (h : Runs letter signalled command) (signal : List UInt8) (n : UInt32)
    (address : List UInt8) (a : UInt32) :
    Layout (signalled :: (signal ++ 0x3b :: address)) (command (some a))
      [.number signal n.toNat, .number address a.toNat]
  /-- A letter, the digit of a kind, an address and a length, with commas between them; text
  behind a semicolon may follow. -/
  | point {letter : UInt8} {command : Point → SerialCommand} (h : Points letter command)
    {digit : UInt8} {kind : PointKind} (hkind : PointKind.ofDigit? digit = some kind)
    (address : List UInt8) (a : UInt32) (length : List UInt8) (n : UInt32) {conditions : List UInt8}
    (hconditions : conditions.head?.all (· == 0x3b))
    (htext : (Text.ofUtf8? (digit :: 0x2c :: (address ++ 0x2c :: (length ++ conditions)))).isSome) :
    Layout (letter :: digit :: 0x2c :: (address ++ 0x2c :: (length ++ conditions)))
      (command { kind, address := a, length := n })
      [.number address a.toNat, .number length n.toNat]

/-- Whether a command has fields. -/
def hasFields : SerialCommand → Bool
  | .writeRegisters _ | .readRegister _ | .writeRegister .. | .readMemory .. | .writeMemory ..
  | .resume _ | .step _ | .insertPoint _ | .removePoint _ => true
  | .haltReason | .readRegisters | .detach | .kill | .setThread | .query _ | .malformed
  | .unsupported => false

/-- The letters of the commands with fields. -/
def fieldLetters : List UInt8 :=
  [0x47, 0x70, 0x50, 0x6d, 0x4d, 0x58, 0x63, 0x73, 0x43, 0x53, 0x5a, 0x7a]

/-- The part of a payload in which fields stand.  What follows the colon of a binary write is
data as it is, and what follows the semicolon of a point is not heeded. -/
def heading : List UInt8 → List UInt8
  | 0x58 :: codes => codes.takeWhile (· != 0x3a)
  | 0x5a :: codes | 0x7a :: codes => codes.takeWhile (· != 0x3b)
  | payload => payload

variable {separator letter : UInt8} {codes front behind payload : List UInt8}
  {command : SerialCommand} {fields : List Field}

/-! ### What is read is laid out -/

/-- Whether a payload is laid out as a command with fields that can be read. -/
def Reads (payload : List UInt8) (command : SerialCommand) : Prop :=
  ∃ fields, Layout payload command fields ∧ ∀ field ∈ fields, field.Readable

lemma reads_of_range? {a : UInt32} {n : Nat} (h : range? codes = some (a, n)) :
    Reads (0x6d :: codes) (.readMemory a n) := by
  obtain ⟨address, length, rfl, hlt, haddress, hlength⟩ := range?_eq_some_iff.1 h
  have hn : (UInt32.ofNat n).toNat = n := UInt32.toNat_ofNat_of_lt' hlt
  have hlayout := Layout.readMemory address a length (UInt32.ofNat n)
  rw [hn] at hlayout
  refine ⟨_, hlayout, ?_⟩
  rw [List.forall_mem_cons, List.forall_mem_singleton]
  exact ⟨haddress, hlength⟩

lemma reads_of_hexWrite? (h : hexWrite? codes = some command) : Reads (0x4d :: codes) command := by
  simp only [hexWrite?, Option.bind_eq_bind, Option.bind_eq_some_iff, Prod.exists] at h
  obtain ⟨header, digits, hsplit, data, hdata, hwrite⟩ := h
  obtain ⟨rfl, -⟩ := splitAtFirst?_eq_some_iff.1 hsplit
  obtain ⟨a, hrange, rfl⟩ := write?_eq_some_iff.1 hwrite
  obtain ⟨address, length, rfl, hlt, haddress, hlength⟩ := range?_eq_some_iff.1 hrange
  rw [List.append_assoc, List.cons_append]
  refine ⟨_, .hexWrite address a length digits data hlt, ?_⟩
  rw [List.forall_mem_cons, List.forall_mem_cons, List.forall_mem_singleton]
  exact ⟨haddress, hlength, Hex.decode?_eq_some_iff.1 hdata⟩

lemma reads_of_binaryWrite? (h : binaryWrite? codes = some command) :
    Reads (0x58 :: codes) command := by
  simp only [binaryWrite?, Option.bind_eq_bind, Option.bind_eq_some_iff, Prod.exists] at h
  obtain ⟨header, escaped, hsplit, data, hdata, hwrite⟩ := h
  obtain ⟨rfl, -⟩ := splitAtFirst?_eq_some_iff.1 hsplit
  obtain ⟨a, hrange, rfl⟩ := write?_eq_some_iff.1 hwrite
  obtain ⟨address, length, rfl, hlt, haddress, hlength⟩ := range?_eq_some_iff.1 hrange
  have hunescape : Packet.unescape escaped = .ok data := by
    rcases hresult : Packet.unescape escaped with fault | data'
    · rw [hresult] at hdata
      cases hdata
    · rw [hresult] at hdata
      rw [Option.some.inj hdata]
  rw [List.append_assoc, List.cons_append]
  refine ⟨_, .binaryWrite address a length escaped data hunescape hlt, ?_⟩
  rw [List.forall_mem_cons, List.forall_mem_singleton]
  exact ⟨haddress, hlength⟩

lemma reads_of_registerWrite? (h : registerWrite? codes = some command) :
    Reads (0x50 :: codes) command := by
  simp only [registerWrite?, Option.bind_eq_bind, Option.bind_eq_some_iff, Option.pure_def,
    Option.some.injEq, Prod.exists] at h
  obtain ⟨index, digits, hsplit, i, hindex, data, hdata, rfl⟩ := h
  obtain ⟨rfl, -⟩ := splitAtFirst?_eq_some_iff.1 hsplit
  refine ⟨_, .writeRegister index i digits data, ?_⟩
  rw [List.forall_mem_cons, List.forall_mem_singleton]
  exact ⟨Numeral.hexWord?_eq_some_iff.1 hindex, Hex.decode?_eq_some_iff.1 hdata⟩

lemma reads_of_resumeAddress? {signalled : UInt8} {run : Option UInt32 → SerialCommand}
    (hrun : Runs letter signalled run) {start : Option UInt32}
    (h : resumeAddress? codes = some start) : Reads (letter :: codes) (run start) := by
  unfold resumeAddress? at h
  split at h
  · next hempty =>
    obtain rfl := List.isEmpty_iff.1 hempty
    obtain rfl := Option.some.inj h
    exact ⟨[], .run hrun, List.forall_mem_nil _⟩
  · obtain ⟨a, haddress, rfl⟩ := Option.map_eq_some_iff.1 h
    refine ⟨_, .runFrom hrun codes a, ?_⟩
    rw [List.forall_mem_singleton]
    exact Numeral.hexWord?_eq_some_iff.1 haddress

lemma reads_of_signalAddress? {signalled : UInt8} {run : Option UInt32 → SerialCommand}
    (hrun : Runs letter signalled run) {start : Option UInt32}
    (h : signalAddress? codes = some start) : Reads (signalled :: codes) (run start) := by
  unfold signalAddress? at h
  split at h
  · next signal address hsplit =>
    simp only [Option.bind_eq_bind, Option.bind_eq_some_iff, Option.pure_def,
      Option.some.injEq] at h
    obtain ⟨n, hsignal, a, haddress, rfl⟩ := h
    obtain ⟨rfl, -⟩ := splitAtFirst?_eq_some_iff.1 hsplit
    refine ⟨_, .runSignalFrom hrun signal n address a, ?_⟩
    rw [List.forall_mem_cons, List.forall_mem_singleton]
    exact ⟨Numeral.hexWord?_eq_some_iff.1 hsignal, Numeral.hexWord?_eq_some_iff.1 haddress⟩
  · obtain ⟨n, hsignal, rfl⟩ := Option.map_eq_some_iff.1 h
    refine ⟨_, .runSignal hrun codes n, ?_⟩
    rw [List.forall_mem_singleton]
    exact Numeral.hexWord?_eq_some_iff.1 hsignal

lemma reads_of_point? {set : Point → SerialCommand} (hset : Points letter set) {point : Point}
    (htext : (Text.ofUtf8? codes).isSome) (h : point? codes = some point) :
    Reads (letter :: codes) (set point) := by
  unfold point? at h
  split at h
  · next digit rest =>
    simp only [Option.bind_eq_bind, Option.bind_eq_some_iff, Option.pure_def, Option.some.injEq,
      Prod.exists] at h
    obtain ⟨kind, hkind, address, length, hsplit, a, haddress, n, hlength, rfl⟩ := h
    obtain ⟨hfields, -⟩ := splitAtFirst?_eq_some_iff.1 hsplit
    -- the fields end with the first semicolon, if there is one
    have hrest : rest = address ++ 0x2c :: (length ++ rest.dropWhile (· != 0x3b)) := by
      conv_lhs => rw [← List.takeWhile_append_dropWhile (p := (· != 0x3b)) (l := rest), hfields]
      rw [List.append_assoc, List.cons_append]
    have hconditions : (rest.dropWhile (· != 0x3b)).head?.all (· == 0x3b) := by
      have hhead := List.head?_dropWhile_not (· != (0x3b : UInt8)) rest
      rcases hdrop : (rest.dropWhile (· != 0x3b)).head? with _ | b
      · rfl
      · rw [hdrop] at hhead
        simpa using hhead
    rw [hrest] at htext ⊢
    refine ⟨_, .point hset hkind address a length n hconditions htext, ?_⟩
    rw [List.forall_mem_cons, List.forall_mem_singleton]
    exact ⟨Numeral.hexWord?_eq_some_iff.1 haddress, Numeral.hexWord?_eq_some_iff.1 hlength⟩
  · cases h

/-- What comes of the arguments of a letter: the letter is not one of a command with fields, or
the arguments are not as they should be, or the payload is laid out as the command. -/
inductive Outcome (letter : UInt8) (codes : List UInt8) : SerialCommand → Prop
  /-- A command without fields, or a letter that is not known. -/
  | other {command : SerialCommand} (hletter : letter ∉ fieldLetters)
    (hfields : command.hasFields = false) : Outcome letter codes command
  /-- Wrong arguments. -/
  | malformed : Outcome letter codes .malformed
  /-- A command with fields. -/
  | reads {command : SerialCommand} (h : Reads (letter :: codes) command) :
    Outcome letter codes command

lemma outcome_getD {command? : Option SerialCommand}
    (h : ∀ command, command? = some command → Reads (letter :: codes) command) :
    Outcome letter codes (command?.getD .malformed) := by
  rcases command? with _ | command
  · exact .malformed
  · exact .reads (h command rfl)

lemma outcome_map {α : Type} {value? : Option α} {toCommand : α → SerialCommand}
    (h : ∀ value, value? = some value → Reads (letter :: codes) (toCommand value)) :
    Outcome letter codes ((value?.map toCommand).getD .malformed) := by
  refine outcome_getD fun command hcommand => ?_
  obtain ⟨value, hvalue, rfl⟩ := Option.map_eq_some_iff.1 hcommand
  exact h value hvalue

lemma outcome_of_ofLetter? {text : String} {command? : Option SerialCommand}
    (htext : Text.ofUtf8? codes = some text) (h : ofLetter? letter codes text = some command?) :
    Outcome letter codes (command?.getD .malformed) := by
  have hisSome : (Text.ofUtf8? codes).isSome := Option.isSome_of_eq_some htext
  unfold ofLetter? at h
  split at h <;> cases h
  case h_1 => exact .other (by decide) rfl
  case h_2 => exact .other (by decide) rfl
  case h_3 =>
    refine outcome_map fun data hdata => ⟨_, .writeRegisters codes data, ?_⟩
    exact List.forall_mem_singleton.2 (Hex.decode?_eq_some_iff.1 hdata)
  case h_4 =>
    refine outcome_map fun i hindex => ⟨_, .readRegister codes i, ?_⟩
    exact List.forall_mem_singleton.2 (Numeral.hexWord?_eq_some_iff.1 hindex)
  case h_5 => exact outcome_getD fun command => reads_of_registerWrite?
  case h_6 => exact outcome_map fun range => reads_of_range?
  case h_7 => exact outcome_getD fun command => reads_of_hexWrite?
  case h_8 => exact outcome_map fun start => reads_of_resumeAddress? .resume
  case h_9 => exact outcome_map fun start => reads_of_resumeAddress? .step
  case h_10 => exact outcome_map fun start => reads_of_signalAddress? .resume
  case h_11 => exact outcome_map fun start => reads_of_signalAddress? .step
  case h_12 => exact .other (by decide) rfl
  case h_13 => exact .other (by decide) rfl
  case h_14 => exact .other (by decide) rfl
  case h_15 => exact .other (by decide) rfl
  case h_16 => exact outcome_map fun point => reads_of_point? .insert hisSome
  case h_17 => exact outcome_map fun point => reads_of_point? .remove hisSome

lemma notMem_of_ofLetter? {text : String} (hletter : letter ≠ 0x58)
    (h : ofLetter? letter codes text = none) : letter ∉ fieldLetters := by
  intro hmem
  simp only [fieldLetters, List.mem_cons, List.not_mem_nil, or_false, hletter, false_or] at hmem
  rcases hmem with rfl | rfl | rfl | rfl | rfl | rfl | rfl | rfl | rfl | rfl | rfl <;> cases h

lemma outcome_parse (letter : UInt8) (codes : List UInt8) :
    Outcome letter codes (parse (letter :: codes)) := by
  unfold parse
  split
  · next heq => cases heq
  · next heq =>
    obtain ⟨rfl, rfl⟩ := List.cons.inj heq
    exact outcome_getD fun command => reads_of_binaryWrite?
  · next letter codes hbinary heq =>
    obtain ⟨rfl, rfl⟩ := List.cons.inj heq
    split
    · exact .malformed
    · next text htext =>
      split
      · next hnone => exact .other (notMem_of_ofLetter? hbinary hnone) rfl
      · next hsome => exact outcome_of_ofLetter? htext hsome

/-! ### What is laid out is read -/

lemma Runs.ofLetter?_eq {signalled : UInt8} {run : Option UInt32 → SerialCommand}
    (h : Runs letter signalled run) (codes : List UInt8) (text : String) :
    (letter ≠ 0x58 ∧ ofLetter? letter codes text = some ((resumeAddress? codes).map run)) ∧
      signalled ≠ 0x58 ∧
        ofLetter? signalled codes text = some ((signalAddress? codes).map run) := by
  cases h with
  | resume => exact ⟨⟨by decide, rfl⟩, by decide, rfl⟩
  | step => exact ⟨⟨by decide, rfl⟩, by decide, rfl⟩

lemma Points.ofLetter?_eq {set : Point → SerialCommand} (h : Points letter set)
    (codes : List UInt8) (text : String) :
    letter ≠ 0x58 ∧ ofLetter? letter codes text = some ((point? codes).map set) := by
  cases h with
  | insert => exact ⟨by decide, rfl⟩
  | remove => exact ⟨by decide, rfl⟩

section Fields

variable {address length conditions : List UInt8} {a n : UInt32}

/-- What follows the letter of a command that lets the machine run says where from. -/
lemma Runs.parse_eq {signalled : UInt8} {run : Option UInt32 → SerialCommand}
    (h : Runs letter signalled run) {start : Option UInt32} (hascii : ∀ code ∈ codes, code < 0x80)
    (hstart : resumeAddress? codes = some start) : parse (letter :: codes) = run start := by
  obtain ⟨⟨hletter, -⟩, -⟩ := h.ofLetter?_eq codes ""
  refine parse_of_ascii hletter hascii fun text => ?_
  rw [(h.ofLetter?_eq codes text).1.2, hstart]
  rfl

/-- And so does what follows the signal. -/
lemma Runs.parse_signalled_eq {signalled : UInt8} {run : Option UInt32 → SerialCommand}
    (h : Runs letter signalled run) {start : Option UInt32} (hascii : ∀ code ∈ codes, code < 0x80)
    (hstart : signalAddress? codes = some start) : parse (signalled :: codes) = run start := by
  obtain ⟨-, hletter, -⟩ := h.ofLetter?_eq codes ""
  refine parse_of_ascii hletter hascii fun text => ?_
  rw [(h.ofLetter?_eq codes text).2.2, hstart]
  rfl

lemma Points.parse_eq {set : Point → SerialCommand} (h : Points letter set) {digit : UInt8}
    {kind : PointKind} (hkind : PointKind.ofDigit? digit = some kind)
    (haddress : SpellsSigned 16 address a.toNat) (hlength : SpellsSigned 16 length n.toNat)
    (hconditions : conditions.head?.all (· == 0x3b))
    (htext : (Text.ofUtf8? (digit :: 0x2c :: (address ++ 0x2c :: (length ++ conditions)))).isSome) :
    parse (letter :: digit :: 0x2c :: (address ++ 0x2c :: (length ++ conditions))) =
      set { kind, address := a, length := n } := by
  obtain ⟨hletter, -⟩ := h.ofLetter?_eq [] ""
  refine parse_of_ofLetter? hletter htext fun text => ?_
  rw [(h.ofLetter?_eq _ text).2, point?_append hkind haddress hlength hconditions]
  rfl

end Fields

/-- A payload that is laid out as a command with fields that can be read is this command. -/
lemma parse_of_layout (h : Layout payload command fields)
    (hreadable : ∀ field ∈ fields, field.Readable) : parse payload = command := by
  cases h with
  | writeRegisters digits data =>
    rw [List.forall_mem_singleton] at hreadable
    exact parse_writeRegisters hreadable
  | readRegister index i =>
    rw [List.forall_mem_singleton] at hreadable
    exact (parse_readRegister hreadable).trans (if_pos i.toNat_lt)
  | writeRegister index i digits data =>
    rw [List.forall_mem_cons, List.forall_mem_singleton] at hreadable
    exact parse_writeRegister hreadable.1 hreadable.2
  | readMemory address a length n =>
    rw [List.forall_mem_cons, List.forall_mem_singleton] at hreadable
    exact parse_readMemory hreadable.1 hreadable.2 n.toNat_lt
  | hexWrite address a length digits data hlt =>
    rw [List.forall_mem_cons, List.forall_mem_cons, List.forall_mem_singleton] at hreadable
    obtain ⟨haddress, hlength, hdata⟩ := hreadable
    exact (parse_hexWrite haddress hlength hdata hlt).trans (if_pos rfl)
  | binaryWrite address a length escaped data hdata hlt =>
    rw [List.forall_mem_cons, List.forall_mem_singleton] at hreadable
    exact (parse_binaryWrite hreadable.1 hreadable.2 hdata hlt).trans (if_pos rfl)
  | run hrun => exact hrun.parse_eq (List.forall_mem_nil _) rfl
  | runFrom hrun address a =>
    rw [List.forall_mem_singleton] at hreadable
    exact hrun.parse_eq (isAscii_of_isDigit hreadable.isDigit_or_eq)
      (resumeAddress?_of_spells hreadable)
  | runSignal hrun signal n =>
    rw [List.forall_mem_singleton] at hreadable
    exact hrun.parse_signalled_eq (isAscii_of_isDigit hreadable.isDigit_or_eq)
      (signalAddress?_of_spells hreadable)
  | runSignalFrom hrun signal n address a =>
    rw [List.forall_mem_cons, List.forall_mem_singleton] at hreadable
    obtain ⟨hsignal, haddress⟩ := hreadable
    exact hrun.parse_signalled_eq (forall_mem_separated
      (isAscii_of_isDigit hsignal.isDigit_or_eq) (by decide)
      (isAscii_of_isDigit haddress.isDigit_or_eq)) (signalAddress?_append hsignal haddress)
  | point hset hkind address a length n hconditions htext =>
    rw [List.forall_mem_cons, List.forall_mem_singleton] at hreadable
    exact hset.parse_eq hkind hreadable.1 hreadable.2 hconditions htext

/-! ### The grammar -/

lemma Layout.hasFields (h : Layout payload command fields) : command.hasFields := by
  cases h with
  | writeRegisters => rfl
  | readRegister => rfl
  | writeRegister => rfl
  | readMemory => rfl
  | hexWrite => rfl
  | binaryWrite => rfl
  | run hrun => cases hrun <;> rfl
  | runFrom hrun => cases hrun <;> rfl
  | runSignal hrun => cases hrun <;> rfl
  | runSignalFrom hrun => cases hrun <;> rfl
  | point hset => cases hset <;> rfl

lemma Points.heading_eq {set : Point → SerialCommand} (h : Points letter set)
    (codes : List UInt8) : heading (letter :: codes) = codes.takeWhile (· != 0x3b) := by
  cases h <;> rfl

lemma heading_of_ne (hbinary : letter ≠ 0x58) (hinsert : letter ≠ 0x5a) (hremove : letter ≠ 0x7a) :
    heading (letter :: codes) = letter :: codes := by
  unfold heading
  split
  · next heq => exact absurd (List.cons.inj heq).1 hbinary
  · next heq => exact absurd (List.cons.inj heq).1 hinsert
  · next heq => exact absurd (List.cons.inj heq).1 hremove
  · rfl

/-- Escaped data may have any byte, so the heading stops in front of it. -/
lemma heading_binaryWrite {address length escaped : List UInt8} {a n : Nat}
    (haddress : SpellsSigned 16 address a) (hlength : SpellsSigned 16 length n) :
    heading (0x58 :: (address ++ 0x2c :: (length ++ 0x3a :: escaped))) =
      address ++ 0x2c :: length := by
  rw [heading, ← List.cons_append, ← List.append_assoc,
    takeWhile_ne_append (notMem_range haddress hlength (by decide)) rfl]

/-- And so it does in front of the text behind a semicolon. -/
lemma heading_point {set : Point → SerialCommand} (hset : Points letter set) {digit : UInt8}
    {address length conditions : List UInt8} {a n : Nat} (hdigit : Numeral.IsDigit 16 digit)
    (haddress : SpellsSigned 16 address a) (hlength : SpellsSigned 16 length n)
    (hconditions : conditions.head?.all (· == 0x3b)) :
    heading (letter :: digit :: 0x2c :: (address ++ 0x2c :: (length ++ conditions))) =
      digit :: 0x2c :: (address ++ 0x2c :: length) := by
  have hsemicolon : digit ≠ 0x3b := by
    rintro rfl
    exact absurd hdigit (by decide)
  have hfields : 0x3b ∉ digit :: 0x2c :: (address ++ 0x2c :: length) := by
    simp only [List.mem_cons, not_or]
    exact ⟨hsemicolon.symm, by decide, notMem_range haddress hlength (by decide)⟩
  rw [hset.heading_eq, ← takeWhile_ne_append hfields hconditions]
  simp only [List.cons_append, List.append_assoc]

/-- Outside of its fields the heading of a payload has no plus sign. -/
lemma plus_mem_heading_iff (h : Layout payload command fields)
    (hreadable : ∀ field ∈ fields, field.Readable) :
    plus ∈ heading payload ↔ ∃ field ∈ fields, plus ∈ field.text := by
  cases h with
  | writeRegisters digits data =>
    rw [heading_of_ne (by decide) (by decide) (by decide)]
    simp [Field.text, plus]
  | readRegister index i =>
    rw [heading_of_ne (by decide) (by decide) (by decide)]
    simp [Field.text, plus]
  | writeRegister index i digits data =>
    rw [heading_of_ne (by decide) (by decide) (by decide)]
    simp [Field.text, plus]
  | readMemory address a length n =>
    rw [heading_of_ne (by decide) (by decide) (by decide)]
    simp [Field.text, plus]
  | hexWrite address a length digits data =>
    rw [heading_of_ne (by decide) (by decide) (by decide)]
    simp [Field.text, plus]
  | binaryWrite address a length escaped data =>
    rw [List.forall_mem_cons, List.forall_mem_singleton] at hreadable
    rw [heading_binaryWrite hreadable.1 hreadable.2]
    simp [Field.text, plus]
  | run hrun => cases hrun <;> simp [heading, plus]
  | runFrom hrun address a => cases hrun <;> simp [heading, Field.text, plus]
  | runSignal hrun signal n => cases hrun <;> simp [heading, Field.text, plus]
  | runSignalFrom hrun signal n address a => cases hrun <;> simp [heading, Field.text, plus]
  | @point letter set hset digit kind hkind address a length n conditions hconditions =>
    rw [List.forall_mem_cons, List.forall_mem_singleton] at hreadable
    have hdigit := isDigit_of_ofDigit? hkind
    have hplus : ¬ 43 = digit := by
      rintro rfl
      exact Numeral.not_isDigit_plus hdigit
    rw [heading_point hset hdigit hreadable.1 hreadable.2 hconditions]
    simp [Field.text, plus, hplus]

/-- Whether a payload is read by the grammar: as a command with fields exactly if it is laid out
so with all fields in hexadecimal digits only, and with the letter of such a command not at all
if it is not. -/
structure FollowsGrammar (payload : List UInt8) : Prop where
  /-- What is read as a command with fields, and all that is. -/
  reads : ∀ command, command.hasFields = true →
    (parse payload = command ↔
      ∃ fields, Layout payload command fields ∧ ∀ field ∈ fields, field.Plain)
  /-- What is refused. -/
  refuses : ∀ letter codes, payload = letter :: codes → letter ∈ fieldLetters →
    (¬ ∃ command fields, Layout payload command fields ∧ ∀ field ∈ fields, field.Plain) →
    parse payload = .malformed

lemma plain_of_plus_notMem (h : Layout payload command fields)
    (hreadable : ∀ field ∈ fields, field.Readable) (hplus : plus ∉ heading payload) :
    ∀ field ∈ fields, field.Plain := by
  intro field hfield
  rw [(hreadable field hfield).plain_iff]
  intro hmem
  exact hplus ((plus_mem_heading_iff h hreadable).2 ⟨field, hfield, hmem⟩)

lemma not_followsGrammar (hfields : (parse payload).hasFields) (hplus : plus ∈ heading payload) :
    ¬ FollowsGrammar payload := by
  intro hgrammar
  obtain ⟨fields, hlayout, hplain⟩ := (hgrammar.reads _ hfields).1 rfl
  have hreadable : ∀ field ∈ fields, field.Readable :=
    fun field hfield => (hplain field hfield).readable
  obtain ⟨field, hfield, hmem⟩ := (plus_mem_heading_iff hlayout hreadable).1 hplus
  exact (hreadable field hfield).plain_iff.1 (hplain field hfield) hmem

/-- All payloads are read by the grammar but those that are read as a command with fields and
have a plus sign in a field. -/
theorem followsGrammar_iff (payload : List UInt8) :
    FollowsGrammar payload ↔ ¬ ((parse payload).hasFields ∧ plus ∈ heading payload) := by
  constructor
  · rintro hgrammar ⟨hfields, hplus⟩
    exact not_followsGrammar hfields hplus hgrammar
  · intro hnone
    constructor
    · intro command hfields
      constructor
      · rintro rfl
        have hplus : plus ∉ heading payload := fun hmem => hnone ⟨hfields, hmem⟩
        cases payload with
        | nil => cases hfields
        | cons letter codes =>
          have houtcome := outcome_parse letter codes
          generalize parse (letter :: codes) = command at houtcome hfields
          cases houtcome with
          | other _ hother => exact absurd (hother.symm.trans hfields) Bool.false_ne_true
          | malformed => cases hfields
          | reads h =>
            obtain ⟨fields, hlayout, hreadable⟩ := h
            exact ⟨fields, hlayout, plain_of_plus_notMem hlayout hreadable hplus⟩
      · rintro ⟨fields, hlayout, hplain⟩
        exact parse_of_layout hlayout fun field hfield => (hplain field hfield).readable
    · rintro letter codes rfl hletter hlayout
      have houtcome := outcome_parse letter codes
      generalize hcommand : parse (letter :: codes) = command at houtcome
      cases houtcome with
      | other hother _ => exact absurd hletter hother
      | malformed => rfl
      | reads h =>
        obtain ⟨fields, hreads, hreadable⟩ := h
        -- what is read is laid out, in plain fields if there is no sign
        have hplus : plus ∉ heading (letter :: codes) := by
          intro hmem
          refine hnone ⟨?_, hmem⟩
          rw [hcommand]
          exact hreads.hasFields
        exact absurd ⟨command, fields, hreads, plain_of_plus_notMem hreads hreadable hplus⟩ hlayout

/-- An address with a plus sign is read, and so is a byte that is a plus sign and a digit. -/
theorem fields_read_with_sign :
    parse (Text.utf8 "m+10,4") = .readMemory 16 4 ∧ ¬ FollowsGrammar (Text.utf8 "m+10,4") ∧
      parse (Text.utf8 "G+5") = .writeRegisters [5] ∧ ¬ FollowsGrammar (Text.utf8 "G+5") := by
  have hread : parse (Text.utf8 "m+10,4") = .readMemory 16 4 := by decide +kernel
  have hwrite : parse (Text.utf8 "G+5") = .writeRegisters [5] := by decide +kernel
  refine ⟨hread, ?_, hwrite, ?_⟩
  · refine not_followsGrammar ?_ (by decide +kernel)
    rw [hread]
    rfl
  · refine not_followsGrammar ?_ (by decide +kernel)
    rw [hwrite]
    rfl

end SerialCommand
end RemoteDebugger
