/-
# Packets with a wrong sum

A packet ends with the sum of its payload, the last eight bits of it, in two hexadecimal digits.
A scanner should take a packet if they are right and report it otherwise (`ChecksSums`).

Which event is found is decided by the payload and the two bytes behind it alone, whatever stands
around the packet (`next_of_begins`, `begins_of_next`).  These two bytes are read as a numeral,
though, and a numeral may begin with a plus sign: a sum below sixteen is also taken as a sign and
one digit.  That is the only way in which a packet with a wrong sum is taken (`checksSums_iff`).
-/
import RemoteDebugger.Proofs.Serial.Scanner
import RemoteDebugger.Proofs.Text.Hex

namespace RemoteDebugger
namespace Packet

open Numeral (IsDigit digitValue plus SpellsSigned)

/-- The sum of bytes in so far as eight bits hold it. -/
def sumOf (bytes : List UInt8) : Nat := (bytes.map UInt8.toNat).sum % 256

/-- Two hexadecimal digits, in either case, that are the sum of a payload. -/
structure RightSum (payload : List UInt8) (d₁ d₀ : UInt8) : Prop where
  /-- The first is a digit. -/
  high : IsDigit 16 d₁
  /-- The second is a digit. -/
  low : IsDigit 16 d₀
  /-- They are the sum. -/
  sum_eq : 16 * digitValue d₁ + digitValue d₀ = sumOf payload

/-- A hexadecimal digit that is the sum of a payload on its own. -/
structure ShortSum (payload : List UInt8) (d₀ : UInt8) : Prop where
  /-- It is a digit. -/
  low : IsDigit 16 d₀
  /-- It is the sum. -/
  sum_eq : digitValue d₀ = sumOf payload

variable {payload bytes : List UInt8} {d₁ d₀ : UInt8}

/-! ### Sums -/

lemma toNat_checksum (bytes : List UInt8) : (checksum bytes).toNat = sumOf bytes := by
  have hfold (sum : UInt8) : (bytes.foldl (· + ·) sum).toNat =
      (sum.toNat + (bytes.map UInt8.toNat).sum) % 256 := by
    induction bytes generalizing sum with
    | nil => exact (Nat.mod_eq_of_lt sum.toNat_lt).symm
    | cons b rest ih =>
      rw [List.foldl_cons, ih, UInt8.toNat_add, List.map_cons, List.sum_cons]
      omega
  rw [checksum, hfold, UInt8.toNat_zero, Nat.zero_add, sumOf]

lemma spells_pair_iff_rightSum :
    Numeral.Spells 16 [d₁, d₀] (sumOf payload) ↔ RightSum payload d₁ d₀ := by
  constructor
  · rintro ⟨-, hdigits, hvalue⟩
    rw [Hex.value_pair] at hvalue
    rw [List.forall_mem_cons, List.forall_mem_singleton] at hdigits
    exact ⟨hdigits.1, hdigits.2, by omega⟩
  · rintro ⟨hhigh, hlow, hsum⟩
    refine ⟨List.cons_ne_nil d₁ [d₀], ?_, ?_⟩
    · rw [List.forall_mem_cons, List.forall_mem_singleton]
      exact ⟨hhigh, hlow⟩
    · rw [Hex.value_pair]
      omega

lemma spells_singleton_iff_shortSum :
    Numeral.Spells 16 [d₀] (sumOf payload) ↔ ShortSum payload d₀ := by
  have hvalue : Numeral.value 16 [d₀] = digitValue d₀ := by simp [Numeral.value_cons]
  constructor
  · rintro ⟨-, hdigits, hsum⟩
    rw [hvalue] at hsum
    exact ⟨List.forall_mem_singleton.1 hdigits, hsum⟩
  · rintro ⟨hlow, hsum⟩
    exact ⟨List.cons_ne_nil d₀ [], List.forall_mem_singleton.2 hlow, hvalue.trans hsum⟩

/-- The two bytes that are read as the sum of a payload: the right digits, or a sign and the
right digit. -/
lemma readSum?_eq_some_checksum_iff : readSum? [d₁, d₀] = some (checksum payload) ↔
    RightSum payload d₁ d₀ ∨ d₁ = plus ∧ ShortSum payload d₀ := by
  have hread : readSum? [d₁, d₀] = some (checksum payload) ↔
      SpellsSigned 16 [d₁, d₀] (sumOf payload) := by
    rw [← toNat_checksum, ← Hex.read_pair_eq_ok_iff, readSum?]
    constructor
    · intro h
      rcases hresult : Numeral.read 16 256 [d₁, d₀] with fault | n
      · rw [hresult] at h
        cases h
      · rw [hresult] at h
        obtain ⟨-, hlt⟩ := Numeral.read_eq_ok_iff.1 hresult
        obtain hsum : UInt8.ofNat n = checksum payload := Option.some.inj h
        rw [← hsum, UInt8.toNat_ofNat', Nat.mod_eq_of_lt hlt]
    · intro h
      rw [h]
      exact congrArg some UInt8.ofNat_toNat
  rw [hread, ← spells_pair_iff_rightSum, ← spells_singleton_iff_shortSum]
  constructor
  · rintro (h | h)
    · exact .inl h
    · exact .inr ⟨rfl, h⟩
  · rintro (h | ⟨rfl, h⟩)
    · exact .plain h
    · exact .signed h

lemma Event.ofPacket_eq_packet_iff : Event.ofPacket payload [d₁, d₀] = .packet payload ↔
    RightSum payload d₁ d₀ ∨ d₁ = plus ∧ ShortSum payload d₀ := by
  rw [← readSum?_eq_some_checksum_iff, Event.ofPacket]
  split
  · next h => exact iff_of_true rfl h
  · next h => exact iff_of_false (fun heq => by cases heq) h

lemma Event.payload_of_ofPacket {found : List UInt8}
    (h : Event.ofPacket payload [d₁, d₀] = .packet found) : found = payload := by
  rw [Event.ofPacket] at h
  split at h
  · exact (Event.packet.inj h).symm
  · cases h

namespace Scanner

/-- The first thing that a scanner holds, passing over bytes that mean nothing, is a packet: its
payload between an opening and the first closing, and two bytes behind that. -/
structure Begins (scanner : Scanner) (payload : List UInt8) (d₁ d₀ : UInt8) (left : Scanner) :
    Prop where
  /-- The payload is not closed before its end. -/
  closing_notMem : closing ∉ payload
  /-- What is passed over is neither an opening nor a request to stop. -/
  buffer_eq : ∃ skipped : List UInt8, (∀ b ∈ skipped, b ≠ opening ∧ b ≠ interruptByte) ∧
    scanner.buffer = skipped ++ opening :: (payload ++ closing :: d₁ :: d₀ :: left.buffer)

variable {scanner left : Scanner}

lemma takeEvent_skip {skipped : List UInt8}
    (h : ∀ b ∈ skipped, b ≠ opening ∧ b ≠ interruptByte) (rest : List UInt8) :
    takeEvent (skipped ++ rest) = takeEvent rest := by
  induction skipped with
  | nil => rfl
  | cons b tail ih =>
    obtain ⟨⟨hopening, hinterrupt⟩, htail⟩ := List.forall_mem_cons.1 h
    rw [List.cons_append, takeEvent_outside hopening hinterrupt, ih htail]

/-- The payload and the two bytes behind it decide what is found. -/
lemma next_of_begins (h : Begins scanner payload d₁ d₀ left) :
    scanner.next = (some (.ofPacket payload [d₁, d₀]), left) := by
  obtain ⟨hpayload, skipped, hskipped, hbuffer⟩ := h
  rw [next, hbuffer, takeEvent_skip hskipped, takeEvent_opening, takePacket_closed hpayload]

/-- What is found and is no request to stop is found in a packet. -/
lemma begins_of_next {event : Event} (h : scanner.next = (some event, left)) :
    event = .interrupt ∨
      ∃ payload d₁ d₀, Begins scanner payload d₁ d₀ left ∧ event = .ofPacket payload [d₁, d₀] := by
  obtain ⟨buffer⟩ := scanner
  obtain ⟨rest⟩ := left
  have htake : takeEvent buffer = (some event, rest) := by
    obtain ⟨hevent, hrest⟩ := Prod.mk.inj h
    exact Prod.ext hevent (Scanner.mk.inj hrest)
  clear h
  induction buffer with
  | nil => cases htake
  | cons b tail ih =>
    by_cases hopening : b = opening
    · subst hopening
      rw [takeEvent_opening] at htake
      by_cases hclosing : closing ∈ tail
      · obtain ⟨payload, behind, rfl, hpayload⟩ := List.eq_append_cons_of_mem hclosing
        rw [takePacket_closed hpayload] at htake
        split at htake
        · next d₁ d₀ behind =>
          obtain ⟨hevent, rfl⟩ := Prod.mk.inj htake
          refine .inr ⟨payload, d₁, d₀, ⟨hpayload, [], List.forall_mem_nil _, rfl⟩, ?_⟩
          exact (Option.some.inj hevent).symm
        · cases htake
      · rw [takePacket_unfinished hclosing] at htake
        cases htake
    · by_cases hinterrupt : b = interruptByte
      · subst hinterrupt
        exact .inl (Option.some.inj (Prod.mk.inj htake).1).symm
      · -- a byte that means nothing belongs to what is passed over
        rw [takeEvent_outside hopening hinterrupt] at htake
        rcases ih htake with hstop | ⟨payload, d₁, d₀, ⟨hpayload, skipped, hskipped, htail⟩, hevent⟩
        · exact .inl hstop
        · refine .inr ⟨payload, d₁, d₀, ⟨hpayload, b :: skipped, ?_, ?_⟩, hevent⟩
          · exact List.forall_mem_cons.2 ⟨⟨hopening, hinterrupt⟩, hskipped⟩
          · exact congrArg (b :: ·) htail

/-! ### Taking packets -/

/-- Packets are taken if their sum is right, and reported if it is not. -/
structure ChecksSums (scanner : Scanner) : Prop where
  /-- A packet that is taken stands in the stream and has the right sum. -/
  right : ∀ payload left, scanner.next = (some (.packet payload), left) →
    ∃ d₁ d₀, Begins scanner payload d₁ d₀ left ∧ RightSum payload d₁ d₀
  /-- A packet with the right sum is taken. -/
  taken : ∀ payload d₁ d₀ left, Begins scanner payload d₁ d₀ left → RightSum payload d₁ d₀ →
    scanner.next = (some (.packet payload), left)
  /-- A packet with two other bytes behind it is reported. -/
  reported : ∀ payload d₁ d₀ left, Begins scanner payload d₁ d₀ left → ¬ RightSum payload d₁ d₀ →
    ∃ expected, scanner.next = (some (.mismatch expected (checksum payload)), left)

/-- Whatever a scanner holds, its next packet is taken if the sum is right and reported if it is
not, unless a plus sign stands in place of the first digit and the second is the sum alone. -/
theorem checksSums_iff (scanner : Scanner) : scanner.ChecksSums ↔
    ∀ payload d₀ left, Begins scanner payload plus d₀ left → ¬ ShortSum payload d₀ := by
  have hplus (payload : List UInt8) (d₀ : UInt8) : ¬ RightSum payload plus d₀ :=
    fun h => Numeral.not_isDigit_plus h.high
  constructor
  · intro hchecks payload d₀ left hbegins hshort
    obtain ⟨expected, hreported⟩ := hchecks.reported payload plus d₀ left hbegins (hplus payload d₀)
    rw [next_of_begins hbegins, Event.ofPacket_eq_packet_iff.2 (.inr ⟨rfl, hshort⟩)] at hreported
    cases hreported
  · intro hnone
    -- without the sign the two bytes are read as the sum only if they are the right digits
    have hright {payload : List UInt8} {d₁ d₀ : UInt8} {left : Scanner}
        (hbegins : Begins scanner payload d₁ d₀ left) :
        Event.ofPacket payload [d₁, d₀] = .packet payload ↔ RightSum payload d₁ d₀ := by
      rw [Event.ofPacket_eq_packet_iff, or_iff_left]
      rintro ⟨rfl, hshort⟩
      exact hnone payload d₀ left hbegins hshort
    constructor
    · intro payload left hnext
      rcases begins_of_next hnext with hstop | ⟨payload', d₁, d₀, hbegins, hevent⟩
      · cases hstop
      · obtain rfl := Event.payload_of_ofPacket hevent.symm
        exact ⟨d₁, d₀, hbegins, (hright hbegins).1 hevent.symm⟩
    · intro payload d₁ d₀ left hbegins hsum
      rw [next_of_begins hbegins, (hright hbegins).2 hsum]
    · intro payload d₁ d₀ left hbegins hsum
      have hevent := mt (hright hbegins).1 hsum
      refine ⟨readSum? [d₁, d₀], ?_⟩
      rw [next_of_begins hbegins]
      rw [Event.ofPacket] at hevent ⊢
      split at hevent
      · exact absurd rfl hevent
      · next hread => rw [if_neg hread]

/-- A payload of the byte 5 is taken with a plus sign and the digit 5 behind it. -/
theorem sum_taken_with_sign :
    let scanner := ({} : Scanner).push [opening, 5, closing, 0x2b, 0x35]
    scanner.next = (some (.packet [5]), {}) ∧ ¬ RightSum [5] 0x2b 0x35 ∧
      ¬ scanner.ChecksSums := by
  intro scanner
  have hbegins : Begins scanner [5] plus 0x35 {} :=
    ⟨by decide, [], List.forall_mem_nil _, rfl⟩
  have hshort : ShortSum [5] 0x35 := ⟨by decide, by decide⟩
  refine ⟨?_, fun h => Numeral.not_isDigit_plus h.high, ?_⟩
  · rw [next_of_begins hbegins, Event.ofPacket_eq_packet_iff.2 (.inr ⟨rfl, hshort⟩)]
  · intro hchecks
    obtain ⟨expected, hreported⟩ := hchecks.reported [5] plus 0x35 {} hbegins
      fun h => Numeral.not_isDigit_plus h.high
    rw [next_of_begins hbegins, Event.ofPacket_eq_packet_iff.2 (.inr ⟨rfl, hshort⟩)] at hreported
    cases hreported

end Scanner
end Packet
end RemoteDebugger
