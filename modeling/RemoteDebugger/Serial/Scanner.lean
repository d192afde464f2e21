/-
# Finding packets in a stream

A scanner collects the bytes of a stream and takes events from their front: packets,
packets whose sum is wrong, and requests to stop.  Acknowledgements and stray bytes
between packets are passed over.  A packet whose end has not come is left for later,
unless it is already longer than any packet may be: then everything is dropped.
-/
import RemoteDebugger.Serial.Packet

namespace RemoteDebugger
namespace Packet

/-- What is found in a stream. -/
inductive Event where
  /-- A packet with the right sum; its payload is still escaped. -/
  | packet (payload : List UInt8)
  /-- A packet whose two last bytes are no number, or not the sum of its payload. -/
  | mismatch (expected : Option UInt8) (actual : UInt8)
  /-- A request to stop. -/
  | interrupt
deriving DecidableEq, Repr

/-- The bytes of a stream that have not been scanned yet. -/
structure Scanner where
  /-- The bytes, in order. -/
  buffer : List UInt8 := []
deriving DecidableEq, Repr

/-- The byte that two bytes spell in hexadecimal. -/
def readSum? (digits : List UInt8) : Option UInt8 :=
  (Numeral.read 16 256 digits).toOption.map UInt8.ofNat

/-- The event of a packet with the given payload and the given two bytes behind it. -/
def Event.ofPacket (payload digits : List UInt8) : Event :=
  if readSum? digits = some (checksum payload) then .packet payload
  else .mismatch (readSum? digits) (checksum payload)

namespace Scanner

/-- How many bytes have not been scanned yet. -/
def pending (scanner : Scanner) : Nat := scanner.buffer.length

/-- Take the next piece of the stream. -/
def push (scanner : Scanner) (piece : List UInt8) : Scanner :=
  { buffer := scanner.buffer ++ piece }

/-- Take a packet from bytes behind an opening. -/
def takePacket (bytes : List UInt8) : Option Event × List UInt8 :=
  match bytes.dropWhile (· != closing) with
  | _ :: d₁ :: d₀ :: rest =>
    (some (.ofPacket (bytes.takeWhile (· != closing)) [d₁, d₀]), rest)
  | [] => (none, if maxLength < bytes.length + 1 then [] else opening :: bytes)
  | _ => (none, opening :: bytes)

/-- Take an event from the front of the bytes. -/
def takeEvent : List UInt8 → Option Event × List UInt8
  | [] => (none, [])
  | b :: rest =>
    if b == opening then takePacket rest
    else if b == interruptByte then (some .interrupt, rest)
    else takeEvent rest

/-- The next event, if the bytes hold one. -/
def next (scanner : Scanner) : Option Event × Scanner :=
  let (event, buffer) := takeEvent scanner.buffer
  (event, { buffer })

/-- The next events until there is none, but no more than `limit`. -/
def take : Nat → Scanner → List Event × Scanner
  | 0, scanner => ([], scanner)
  | limit + 1, scanner =>
    match scanner.next with
    | (none, scanner) => ([], scanner)
    | (some event, scanner) =>
      let (events, scanner) := take limit scanner
      (event :: events, scanner)

theorem length_of_takeEvent {bytes rest : List UInt8} {event : Event}
    (h : takeEvent bytes = (some event, rest)) : rest.length < bytes.length := by
  induction bytes with
  | nil => cases h
  | cons b tail ih =>
    rw [takeEvent] at h
    split at h
    · have hlen := (List.dropWhile_suffix (p := (· != closing)) (l := tail)).length_le
      unfold takePacket at h
      split at h
      · next heq =>
        rw [heq] at hlen
        simp only [Prod.mk.injEq] at h
        rw [← h.2]
        simp only [List.length_cons] at hlen ⊢
        omega
      · cases h
      · cases h
    · split at h
      · cases h
        simp
      · have := ih h
        simp only [List.length_cons]
        omega

/-- All events that the bytes hold. -/
def drain (scanner : Scanner) : List Event × Scanner :=
  match _h : takeEvent scanner.buffer with
  | (none, buffer) => ([], { buffer })
  | (some event, buffer) =>
    let (events, scanner) := drain { buffer }
    (event :: events, scanner)
termination_by scanner.buffer.length
decreasing_by exact length_of_takeEvent _h

end Scanner
end Packet
end RemoteDebugger
