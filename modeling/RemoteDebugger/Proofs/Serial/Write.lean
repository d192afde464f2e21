/-
# The two forms of a write

Memory is written with data in hexadecimal or with data as it is, which is escaped.  Both forms
have the same header, an address and a length in hexadecimal, and both stand for the same write;
where the length is not that of the data both are malformed (`writes_agree`).

Escaping comes in at two points: data that is escaped by itself, and a whole payload that is
escaped on its way into a packet.  They meet because a header has no reserved byte
(`escape_writePayload`).
-/
import RemoteDebugger.Proofs.Serial.Argument
import RemoteDebugger.Proofs.Serial.Arrival
import RemoteDebugger.Proofs.Serial.RoundTrip

namespace RemoteDebugger

namespace Packet

lemma escape_append (front behind : List UInt8) :
    escape (front ++ behind) = escape front ++ escape behind :=
  List.flatMap_append

lemma escape_of_unreserved {data : List UInt8} (h : ∀ b ∈ data, isReserved b = false) :
    escape data = data := by
  induction data with
  | nil => rfl
  | cons b rest ih =>
    obtain ⟨hb, hrest⟩ := List.forall_mem_cons.1 h
    have hsingle : escape [b] = [b] := by simp [escape, hb]
    rw [← List.singleton_append, escape_append, hsingle, ih hrest]

lemma isReserved_of_isDigit {b : UInt8} (h : Numeral.IsDigit 16 b) : isReserved b = false := by
  have hne (c : UInt8) (hc : ¬ Numeral.IsDigit 16 c) : b ≠ c := by
    rintro rfl
    exact hc h
  rw [isReserved, Bool.or_eq_false_iff, Bool.or_eq_false_iff, beq_eq_false_iff_ne,
    beq_eq_false_iff_ne, beq_eq_false_iff_ne]
  exact ⟨⟨hne _ (by decide), hne _ (by decide)⟩, hne _ (by decide)⟩

/-- However the bytes of one packet arrive, the packet is found, if it is not longer than a
scanner waits for. -/
lemma finish_encode {payload : List UInt8} (hlength : (escape payload).length + 1 ≤ maxLength)
    {calls : List Scanner.Call} (hcalls : Scanner.stream calls = encode payload) :
    ({} : Scanner).finish calls = ([.packet (escape payload)], {}) := by
  -- while the packet is incomplete it is short enough to be waited for
  have hbounded : Bounded (encode payload) :=
    .packet (closing_not_mem_escape payload) hlength .empty
  have htake := Scanner.takeEvent_encode_append payload []
  rw [List.append_nil] at htake
  rw [Scanner.finish_eq_drain (by rwa [hcalls]), hcalls]
  exact (Scanner.drain_of_some htake).trans (congrArg _ (Scanner.drain_of_none rfl))

end Packet

namespace SerialCommand

open Numeral (Spells)

/-- The payload of a write: its letter, an address, a comma, a length, a colon and data. -/
def writePayload (letter : UInt8) (address length content : List UInt8) : List UInt8 :=
  letter :: (address ++ 0x2c :: (length ++ 0x3a :: content))

variable {address length data : List UInt8} {a : UInt32} {n : Nat}

/-- Only the data of a write changes when its payload is escaped. -/
lemma escape_writePayload (haddress : Spells 16 address a.toNat) (hlength : Spells 16 length n) :
    Packet.escape (writePayload 0x58 address length data) =
      writePayload 0x58 address length (Packet.escape data) := by
  -- a header has digits, a comma and a colon
  have hheader : ∀ b ∈ 0x58 :: (address ++ 0x2c :: (length ++ [0x3a])),
      Packet.isReserved b = false := by
    rw [List.forall_mem_cons]
    refine ⟨by decide, forall_mem_separated ?_ (by decide)
      (forall_mem_separated ?_ (by decide) (List.forall_mem_nil _))⟩
    · exact fun b hb => Packet.isReserved_of_isDigit (haddress.digits b hb)
    · exact fun b hb => Packet.isReserved_of_isDigit (hlength.digits b hb)
  have hsplit (content : List UInt8) : writePayload 0x58 address length content =
      0x58 :: (address ++ 0x2c :: (length ++ [0x3a])) ++ content := by
    simp [writePayload]
  rw [hsplit, hsplit, Packet.escape_append, Packet.escape_of_unreserved hheader]

/-- A write in hexadecimal and one of escaped bytes are the same command, whatever the data and
however the address and the length are written; and so is a write of bytes that are escaped with
their packet, whatever follows the packet in the stream, and however the packet arrives if it is
not too long. -/
theorem writes_agree (haddress : Spells 16 address a.toNat) (hlength : Spells 16 length n)
    (hdata : data.length < 2 ^ 32) :
    let command := if data.length = n then writeMemory a data else malformed
    let packet := Packet.encode (writePayload 0x58 address length data)
    parse (writePayload 0x4d address length (Hex.encode data)) = command ∧
      parse (writePayload 0x58 address length (Packet.escape data)) = command ∧
      ∃ payload, parse payload = command ∧
        (∀ rest, (({} : Packet.Scanner).push (packet ++ rest)).next =
          (some (.packet payload), { buffer := rest })) ∧
        (payload.length + 1 ≤ Packet.maxLength →
          ∀ calls, Packet.Scanner.stream calls = packet →
            ({} : Packet.Scanner).finish calls = ([.packet payload], {})) := by
  intro command packet
  have hbinary : parse (writePayload 0x58 address length (Packet.escape data)) = command :=
    parse_binaryWrite (.plain haddress) (.plain hlength) (Packet.unescape_escape data) hdata
  refine ⟨parse_hexWrite (.plain haddress) (.plain hlength)
    (Hex.decode?_eq_some_iff.1 (Hex.decode?_encode data)) hdata, hbinary,
    Packet.escape (writePayload 0x58 address length data), ?_, ?_, ?_⟩
  · rw [escape_writePayload haddress hlength]
    exact hbinary
  · intro rest
    rw [Packet.Scanner.push, Packet.Scanner.next, List.nil_append,
      Packet.Scanner.takeEvent_encode_append]
  · intro hmax calls hcalls
    exact Packet.finish_encode hmax hcalls

/-- Data with all the bytes that mean something elsewhere and bytes that are no text, with a
length that is right and with one that is not. -/
theorem writes_agree_of_reserved_bytes :
    let data : List UInt8 := [0x3a, 0x2c, 0x23, 0x24, 0x7d, 0x03, 0xff, 0x80, 0x2b, 0x00]
    let address := Text.utf8 "00C0fFee"
    Spells 16 address (0xc0ffee : UInt32).toNat ∧ Spells 16 (Text.utf8 "0A") 10 ∧
      Spells 16 (Text.utf8 "100000000a") 0x100000000a ∧ data.length < 2 ^ 32 ∧
      parse (writePayload 0x58 address (Text.utf8 "0A") (Packet.escape data)) =
        writeMemory 0xc0ffee data ∧
      parse (writePayload 0x58 address (Text.utf8 "100000000a") (Packet.escape data)) =
        malformed ∧
      ∃ payload, parse payload = writeMemory 0xc0ffee data ∧
        (({} : Packet.Scanner).push
          (Packet.encode (writePayload 0x58 address (Text.utf8 "0A") data) ++ [0x24])).next =
            (some (.packet payload), { buffer := [0x24] }) := by
  intro data address
  have haddress : Spells 16 address (0xc0ffee : UInt32).toNat := by decide +kernel
  have hright : Spells 16 (Text.utf8 "0A") 10 := by decide +kernel
  have hwrong : Spells 16 (Text.utf8 "100000000a") 0x100000000a := by decide +kernel
  have hdata : data.length < 2 ^ 32 := by decide
  obtain ⟨-, hbinary, payload, hpayload, hnext, -⟩ := writes_agree haddress hright hdata
  obtain ⟨-, hmalformed, -⟩ := writes_agree haddress hwrong hdata
  exact ⟨haddress, hright, hwrong, hdata, hbinary, hmalformed, payload, hpayload, hnext [0x24]⟩

end SerialCommand
end RemoteDebugger
