/-
# Arguments of commands

The arguments of a command are numbers and data with separators between them.  A separator is
neither a digit nor a sign, so the first one of a payload is the one that stands behind the first
argument.  For each form of arguments this module says which value is read of them, and where
they fail; and of a letter with such arguments, which command it is.
-/
import Mathlib.Data.List.TakeWhile
import RemoteDebugger.Proofs.Text.Hex
import RemoteDebugger.Serial.Command

namespace RemoteDebugger
namespace Text

/-- ASCII bytes are text. -/
lemma exists_ofUtf8? {bytes : List UInt8} (h : ∀ b ∈ bytes, b < 0x80) :
    ∃ text, ofUtf8? bytes = some text := by
  have hascii : isAscii bytes := List.all_eq_true.2 fun b hb => decide_eq_true (h b hb)
  have hvalid : bytes.toByteArray.IsValidUTF8 := by
    rw [← utf8_ofCodes hascii]
    exact ByteArray.isValidUTF8_utf8Encode
  exact ⟨_, dif_pos hvalid⟩

end Text

namespace SerialCommand

open Numeral (SpellsSigned plus)

variable {separator letter : UInt8} {codes front behind : List UInt8} {command : SerialCommand}

/-! ### Separators -/

/-- What is in front of the first separator, if there is one. -/
lemma takeWhile_ne_append (hfront : separator ∉ front)
    (hbehind : behind.head?.all (· == separator)) :
    (front ++ behind).takeWhile (· != separator) = front := by
  rw [List.takeWhile_append_of_pos]
  · cases behind with
    | nil => exact List.append_nil front
    | cons b rest =>
      obtain rfl : b = separator := by simpa using hbehind
      rw [List.takeWhile_cons_of_neg (by simp), List.append_nil]
  · intro b hb
    rw [bne_iff_ne]
    rintro rfl
    exact hfront hb

lemma splitAtFirst?_append (h : separator ∉ front) :
    splitAtFirst? separator (front ++ separator :: behind) = some (front, behind) := by
  have htake : (front ++ separator :: behind).takeWhile (· != separator) = front :=
    takeWhile_ne_append h (by simp)
  have hboth := List.takeWhile_append_dropWhile (p := (· != separator))
    (l := front ++ separator :: behind)
  rw [htake] at hboth
  rw [splitAtFirst?, htake, List.append_cancel_left hboth]

lemma splitAtFirst?_of_notMem (h : separator ∉ codes) : splitAtFirst? separator codes = none := by
  have hdrop : codes.dropWhile (· != separator) = [] := by
    rw [List.dropWhile_eq_nil_iff]
    intro b hb
    rw [bne_iff_ne]
    rintro rfl
    exact h hb
  rw [splitAtFirst?, hdrop]

lemma splitAtFirst?_eq_some_iff : splitAtFirst? separator codes = some (front, behind) ↔
    codes = front ++ separator :: behind ∧ separator ∉ front := by
  constructor
  · intro h
    by_cases hmem : separator ∈ codes
    · obtain ⟨front', behind', rfl, hfront⟩ := List.eq_append_cons_of_mem hmem
      rw [splitAtFirst?_append hfront] at h
      cases h
      exact ⟨rfl, hfront⟩
    · rw [splitAtFirst?_of_notMem hmem] at h
      cases h
  · rintro ⟨rfl, hfront⟩
    exact splitAtFirst?_append hfront

/-- Separators are none of the characters of a number. -/
lemma notMem_range {m n : Nat} (haddress : SpellsSigned 16 front m)
    (hlength : SpellsSigned 16 behind n)
    (hseparator : ¬ Numeral.IsDigit 16 separator ∧ separator ≠ plus ∧ separator ≠ 0x2c) :
    separator ∉ front ++ 0x2c :: behind := by
  obtain ⟨hdigit, hplus, hcomma⟩ := hseparator
  simp only [List.mem_append, List.mem_cons, not_or]
  exact ⟨haddress.notMem hdigit hplus, hcomma, hlength.notMem hdigit hplus⟩

lemma forall_mem_separated {P : UInt8 → Prop} (hfront : ∀ code ∈ front, P code)
    (hseparator : P separator) (hbehind : ∀ code ∈ behind, P code) :
    ∀ code ∈ front ++ separator :: behind, P code := by
  rw [List.forall_mem_append, List.forall_mem_cons]
  exact ⟨hfront, hseparator, hbehind⟩

/-! ### Ranges -/

lemma range?_append {a : UInt32} (haddress : SpellsSigned 16 front a.toNat) :
    range? (front ++ 0x2c :: behind) =
      (Numeral.hexWord? behind).map fun length => (a, length.toNat) := by
  rw [range?, splitAtFirst?_append (haddress.notMem (by decide) (by decide))]
  simp only [Option.bind_eq_bind, Option.bind_some, Numeral.hexWord?_eq_some_iff.2 haddress,
    Option.pure_def]
  exact Option.map_eq_bind.symm

lemma range?_eq_some_iff {a : UInt32} {n : Nat} : range? codes = some (a, n) ↔
    ∃ address length, codes = address ++ 0x2c :: length ∧ n < 2 ^ 32 ∧
      SpellsSigned 16 address a.toNat ∧ SpellsSigned 16 length n := by
  constructor
  · intro h
    simp only [range?, Option.bind_eq_bind, Option.bind_eq_some_iff, Option.pure_def,
      Option.some.injEq, Prod.mk.injEq, Prod.exists] at h
    obtain ⟨address, length, hsplit, a', haddress, w, hlength, rfl, rfl⟩ := h
    obtain ⟨hcodes, -⟩ := splitAtFirst?_eq_some_iff.1 hsplit
    exact ⟨address, length, hcodes, w.toNat_lt, Numeral.hexWord?_eq_some_iff.1 haddress,
      Numeral.hexWord?_eq_some_iff.1 hlength⟩
  · rintro ⟨address, length, rfl, hlt, haddress, hlength⟩
    rw [range?_append haddress, Numeral.hexWord?_of_spells hlength, if_pos hlt, Option.map_some,
      UInt32.toNat_ofNat_of_lt' hlt]

lemma write?_eq_some_iff {data : List UInt8} : write? codes data = some command ↔
    ∃ a, range? codes = some (a, data.length) ∧ command = .writeMemory a data := by
  rcases hrange : range? codes with _ | ⟨a, n⟩
  · simp [write?, hrange]
  · by_cases hlength : data.length = n
    · simp [write?, hrange, hlength, eq_comm]
    · simp [write?, hrange, hlength, Ne.symm hlength]

/-- A length that is declared is the length of the data, or there is no write. -/
lemma write?_append {a : UInt32} {n : Nat} {data : List UInt8}
    (haddress : SpellsSigned 16 front a.toNat) (hlength : SpellsSigned 16 behind n)
    (hdata : data.length < 2 ^ 32) :
    write? (front ++ 0x2c :: behind) data =
      if data.length = n then some (.writeMemory a data) else none := by
  split
  · next heq =>
    subst heq
    rw [write?_eq_some_iff]
    exact ⟨a, range?_eq_some_iff.2 ⟨front, behind, rfl, hdata, haddress, hlength⟩, rfl⟩
  · next hne =>
    -- a write declares the length of its data, and a text spells one number only
    rw [Option.eq_none_iff_forall_ne_some]
    intro command hwrite
    obtain ⟨b, hrange, -⟩ := write?_eq_some_iff.1 hwrite
    rw [range?_append haddress, Numeral.hexWord?_of_spells hlength] at hrange
    split at hrange
    · next hlt =>
      rw [Option.map_some, Option.some.injEq, Prod.mk.injEq,
        UInt32.toNat_ofNat_of_lt' hlt] at hrange
      exact hne hrange.2.symm
    · cases hrange

lemma hexWrite?_append {m n : Nat} {digits : List UInt8} (haddress : SpellsSigned 16 front m)
    (hlength : SpellsSigned 16 behind n) :
    hexWrite? (front ++ 0x2c :: (behind ++ 0x3a :: digits)) =
      (Hex.decode? digits).bind (write? (front ++ 0x2c :: behind)) := by
  rw [← List.cons_append, ← List.append_assoc, hexWrite?,
    splitAtFirst?_append (notMem_range haddress hlength (by decide))]
  rfl

lemma binaryWrite?_append {m n : Nat} {escaped : List UInt8} (haddress : SpellsSigned 16 front m)
    (hlength : SpellsSigned 16 behind n) :
    binaryWrite? (front ++ 0x2c :: (behind ++ 0x3a :: escaped)) =
      (Packet.unescape escaped).toOption.bind (write? (front ++ 0x2c :: behind)) := by
  rw [← List.cons_append, ← List.append_assoc, binaryWrite?,
    splitAtFirst?_append (notMem_range haddress hlength (by decide))]
  rfl

/-! ### Other arguments -/

lemma registerWrite?_append {i : UInt32} {data : List UInt8}
    (hindex : SpellsSigned 16 front i.toNat) (hdata : Hex.Pairs behind data) :
    registerWrite? (front ++ 0x3d :: behind) = some (.writeRegister i.toNat data) := by
  rw [registerWrite?, splitAtFirst?_append (hindex.notMem (by decide) (by decide))]
  simp only [Option.bind_eq_bind, Option.bind_some, Numeral.hexWord?_eq_some_iff.2 hindex,
    Hex.decode?_eq_some_iff.2 hdata, Option.pure_def]

lemma resumeAddress?_of_spells {a : UInt32} (h : SpellsSigned 16 codes a.toNat) :
    resumeAddress? codes = some (some a) := by
  rw [resumeAddress?, if_neg (mt List.isEmpty_iff.1 h.ne_nil), Numeral.hexWord?_eq_some_iff.2 h]
  rfl

lemma signalAddress?_of_spells {n : UInt32} (h : SpellsSigned 16 codes n.toNat) :
    signalAddress? codes = some none := by
  rw [signalAddress?, splitAtFirst?_of_notMem (h.notMem (by decide) (by decide)),
    Numeral.hexWord?_eq_some_iff.2 h]
  rfl

lemma signalAddress?_append {n a : UInt32} (hsignal : SpellsSigned 16 front n.toNat)
    (haddress : SpellsSigned 16 behind a.toNat) :
    signalAddress? (front ++ 0x3b :: behind) = some (some a) := by
  rw [signalAddress?, splitAtFirst?_append (hsignal.notMem (by decide) (by decide))]
  dsimp only
  rw [Numeral.hexWord?_eq_some_iff.2 hsignal, Numeral.hexWord?_eq_some_iff.2 haddress]
  rfl

lemma point?_append {digit : UInt8} {kind : PointKind} {a n : UInt32}
    {address length conditions : List UInt8} (hkind : PointKind.ofDigit? digit = some kind)
    (haddress : SpellsSigned 16 address a.toNat) (hlength : SpellsSigned 16 length n.toNat)
    (hconditions : conditions.head?.all (· == 0x3b)) :
    point? (digit :: 0x2c :: (address ++ 0x2c :: (length ++ conditions))) =
      some { kind, address := a, length := n } := by
  have hfields : 0x3b ∉ address ++ 0x2c :: length := notMem_range haddress hlength (by decide)
  have htake : (address ++ 0x2c :: (length ++ conditions)).takeWhile (· != 0x3b) =
      address ++ 0x2c :: length := by
    rw [← List.cons_append, ← List.append_assoc, takeWhile_ne_append hfields hconditions]
  rw [point?, htake, hkind, splitAtFirst?_append (haddress.notMem (by decide) (by decide))]
  simp only [Option.bind_eq_bind, Option.bind_some, Numeral.hexWord?_eq_some_iff.2 haddress,
    Numeral.hexWord?_eq_some_iff.2 hlength, Option.pure_def]

lemma isDigit_of_ofDigit? {digit : UInt8} {kind : PointKind}
    (h : PointKind.ofDigit? digit = some kind) : Numeral.IsDigit 16 digit := by
  unfold PointKind.ofDigit? at h
  split at h
  · decide
  · decide
  · decide
  · decide
  · decide
  · cases h

/-! ### Text -/

lemma parse_of_ofLetter? (hletter : letter ≠ 0x58) (htext : (Text.ofUtf8? codes).isSome)
    (h : ∀ text, (ofLetter? letter codes text).map (·.getD .malformed) = some command) :
    parse (letter :: codes) = command := by
  obtain ⟨text, htext⟩ := Option.isSome_iff_exists.1 htext
  obtain ⟨command?, hcommand?, rfl⟩ := Option.map_eq_some_iff.1 (h text)
  unfold parse
  split
  · next heq => cases heq
  · next heq => exact absurd (List.cons.inj heq).1 hletter
  · next heq =>
    obtain ⟨rfl, rfl⟩ := List.cons.inj heq
    rw [htext]
    dsimp only
    rw [hcommand?]

lemma parse_of_ascii (hletter : letter ≠ 0x58) (hascii : ∀ code ∈ codes, code < 0x80)
    (h : ∀ text, (ofLetter? letter codes text).map (·.getD .malformed) = some command) :
    parse (letter :: codes) = command := by
  obtain ⟨text, htext⟩ := Text.exists_ofUtf8? hascii
  exact parse_of_ofLetter? hletter (Option.isSome_of_eq_some htext) h

lemma isAscii_of_isDigit (h : ∀ code ∈ codes, Numeral.IsDigit 16 code ∨ code = plus) :
    ∀ code ∈ codes, code < 0x80 := by
  intro code hcode
  rcases h code hcode with hdigit | rfl
  · exact hdigit.lt
  · decide

/-! ### Commands with numbers and data -/

section Commands

variable {index address length digits escaped data : List UInt8} {i a : UInt32} {n : Nat}

lemma parse_writeRegisters (hdata : Hex.Pairs digits data) :
    parse (0x47 :: digits) = .writeRegisters data := by
  refine parse_of_ascii (by decide) (isAscii_of_isDigit hdata.isDigit_or_eq) fun text => ?_
  exact congrArg (fun data? => some ((data?.map writeRegisters).getD .malformed))
    (Hex.decode?_eq_some_iff.2 hdata)

/-- A number that is too large for a word is no number of a register. -/
lemma parse_readRegister (hindex : SpellsSigned 16 index n) :
    parse (0x70 :: index) = if n < 2 ^ 32 then .readRegister n else .malformed := by
  refine parse_of_ascii (by decide) (isAscii_of_isDigit hindex.isDigit_or_eq) fun text => ?_
  change some (((Numeral.hexWord? index).map fun i => readRegister i.toNat).getD .malformed) = _
  rw [Numeral.hexWord?_of_spells hindex]
  split
  · next hlt =>
    rw [Option.map_some, UInt32.toNat_ofNat_of_lt' hlt]
    rfl
  · rfl

lemma parse_writeRegister (hindex : SpellsSigned 16 index i.toNat) (hdata : Hex.Pairs digits data) :
    parse (0x50 :: (index ++ 0x3d :: digits)) = .writeRegister i.toNat data := by
  refine parse_of_ascii (by decide) (forall_mem_separated
    (isAscii_of_isDigit hindex.isDigit_or_eq) (by decide)
    (isAscii_of_isDigit hdata.isDigit_or_eq)) fun text => ?_
  exact congrArg (fun command? => some (command?.getD .malformed))
    (registerWrite?_append hindex hdata)

lemma parse_readMemory (haddress : SpellsSigned 16 address a.toNat)
    (hlength : SpellsSigned 16 length n) (hlt : n < 2 ^ 32) :
    parse (0x6d :: (address ++ 0x2c :: length)) = .readMemory a n := by
  refine parse_of_ascii (by decide) (forall_mem_separated
    (isAscii_of_isDigit haddress.isDigit_or_eq) (by decide)
    (isAscii_of_isDigit hlength.isDigit_or_eq)) fun text => ?_
  have hrange : range? (address ++ 0x2c :: length) = some (a, n) :=
    range?_eq_some_iff.2 ⟨address, length, rfl, hlt, haddress, hlength⟩
  change some (((range? _).map _).getD SerialCommand.malformed) = _
  rw [hrange]
  rfl

lemma parse_hexWrite (haddress : SpellsSigned 16 address a.toNat)
    (hlength : SpellsSigned 16 length n) (hdigits : Hex.Pairs digits data)
    (hdata : data.length < 2 ^ 32) :
    parse (0x4d :: (address ++ 0x2c :: (length ++ 0x3a :: digits))) =
      if data.length = n then .writeMemory a data else .malformed := by
  refine parse_of_ascii (by decide) (forall_mem_separated
    (isAscii_of_isDigit haddress.isDigit_or_eq) (by decide) (forall_mem_separated
      (isAscii_of_isDigit hlength.isDigit_or_eq) (by decide)
      (isAscii_of_isDigit hdigits.isDigit_or_eq))) fun text => ?_
  change some ((hexWrite? _).getD .malformed) = _
  rw [hexWrite?_append haddress hlength, Hex.decode?_eq_some_iff.2 hdigits, Option.bind_some,
    write?_append haddress hlength hdata]
  split <;> rfl

/-- Escaped data need not be text. -/
lemma parse_binaryWrite (haddress : SpellsSigned 16 address a.toNat)
    (hlength : SpellsSigned 16 length n) (hescaped : Packet.unescape escaped = .ok data)
    (hdata : data.length < 2 ^ 32) :
    parse (0x58 :: (address ++ 0x2c :: (length ++ 0x3a :: escaped))) =
      if data.length = n then .writeMemory a data else .malformed := by
  change (binaryWrite? _).getD .malformed = _
  rw [binaryWrite?_append haddress hlength, hescaped, Except.toOption, Option.bind_some,
    write?_append haddress hlength hdata]
  split <;> rfl

end Commands

end SerialCommand
end RemoteDebugger
