/-
# How the bytes of a stream arrive

A scanner may be asked for events at any time, also while a packet is only partly there.  The
events that it gives and the bytes that it keeps in the end depend on the stream alone, not on
how the stream is cut or when the scanner is asked (`finish_eq_of_bounded`).

This needs that no packet of the stream is longer than a scanner waits for (`Bounded`).  Of a
longer one the scanner drops what is there when it is asked, and that depends on the cuts.
-/
import RemoteDebugger.Proofs.Serial.Scanner

namespace RemoteDebugger
namespace Packet

/-- A stream whose packets are short enough, as they are met from left to right: the closing of
each comes at most `maxLength` bytes behind its opening, and an unfinished last packet has at
most `maxLength` bytes. -/
inductive Bounded : List UInt8 → Prop
  /-- Nothing. -/
  | empty : Bounded []
  /-- A byte outside of packets. -/
  | outside {b : UInt8} {rest : List UInt8} (hb : b ≠ opening) (hrest : Bounded rest) :
    Bounded (b :: rest)
  /-- A packet; the two bytes of its sum may be cut off. -/
  | packet {payload behind : List UInt8} (hpayload : closing ∉ payload)
    (hlength : payload.length + 1 ≤ maxLength) (hrest : Bounded (behind.drop 2)) :
    Bounded (opening :: (payload ++ closing :: behind))
  /-- A packet whose end has not come. -/
  | unfinished {payload : List UInt8} (hpayload : closing ∉ payload)
    (hlength : payload.length + 1 ≤ maxLength) : Bounded (opening :: payload)

namespace Bounded

variable {b : UInt8} {payload behind rest : List UInt8}

lemma of_outside (h : Bounded (b :: rest)) (hb : b ≠ opening) : Bounded rest := by
  cases h with
  | outside _ hrest => exact hrest
  | packet => exact absurd rfl hb
  | unfinished => exact absurd rfl hb

lemma of_packet (h : Bounded (opening :: (payload ++ closing :: behind)))
    (hpayload : closing ∉ payload) :
    payload.length + 1 ≤ maxLength ∧ Bounded (behind.drop 2) := by
  generalize hbytes : opening :: (payload ++ closing :: behind) = bytes at h
  cases h with
  | empty => cases hbytes
  | outside hb =>
    obtain ⟨rfl, -⟩ := List.cons.inj hbytes
    exact absurd rfl hb
  | packet hpayload' hlength hrest =>
    obtain ⟨rfl, rfl⟩ := Scanner.closed_inj hpayload hpayload' (List.cons.inj hbytes).2
    exact ⟨hlength, hrest⟩
  | unfinished hpayload' =>
    obtain ⟨-, rfl⟩ := List.cons.inj hbytes
    exact absurd (List.mem_append_right payload List.mem_cons_self) hpayload'

/-- The first bytes of a packet, before any closing, are few enough to be kept. -/
lemma length_of_unfinished (h : Bounded (opening :: (payload ++ rest)))
    (hpayload : closing ∉ payload) : payload.length + 1 ≤ maxLength := by
  by_cases hrest : closing ∈ rest
  · obtain ⟨more, behind, rfl, hmore⟩ := List.eq_append_cons_of_mem hrest
    rw [← List.append_assoc] at h
    have hboth : closing ∉ payload ++ more := by simp [hpayload, hmore]
    obtain ⟨hlength, -⟩ := h.of_packet hboth
    rw [List.length_append] at hlength
    omega
  · have hboth : closing ∉ payload ++ rest := by simp [hpayload, hrest]
    generalize hbytes : opening :: (payload ++ rest) = bytes at h
    cases h with
    | empty => cases hbytes
    | outside hb =>
      obtain ⟨rfl, -⟩ := List.cons.inj hbytes
      exact absurd rfl hb
    | packet =>
      rw [(List.cons.inj hbytes).2] at hboth
      exact absurd (List.mem_append_right _ List.mem_cons_self) hboth
    | unfinished _ hlength =>
      rw [← (List.cons.inj hbytes).2, List.length_append] at hlength
      omega

end Bounded

namespace Scanner

/-! ### An event that is taken early -/

/-- What is taken of the first bytes of a stream, before the rest has come, is what would be
taken of the whole stream. -/
lemma drain_append {bytes rest left : List UInt8} {event : Option Event}
    (h : Bounded (bytes ++ rest)) (htake : takeEvent bytes = (event, left)) :
    Bounded (left ++ rest) ∧
      ({ buffer := bytes ++ rest } : Scanner).drain =
        after event.toList ({ buffer := left ++ rest } : Scanner).drain := by
  have hstay (hleft : (none, bytes) = (event, left)) : Bounded (left ++ rest) ∧
      ({ buffer := bytes ++ rest } : Scanner).drain =
        after event.toList ({ buffer := left ++ rest } : Scanner).drain := by
    obtain ⟨rfl, rfl⟩ := Prod.mk.inj hleft
    exact ⟨h, rfl⟩
  induction bytes with
  | nil => exact hstay htake
  | cons b tail ih =>
    rw [List.cons_append] at h ⊢
    by_cases hopening : b = opening
    · subst hopening
      rw [takeEvent_opening] at htake
      by_cases hclosing : closing ∈ tail
      · obtain ⟨payload, behind, rfl, hpayload⟩ := List.eq_append_cons_of_mem hclosing
        rw [takePacket_closed hpayload] at htake
        split at htake
        · next d₁ d₀ behind =>
          -- the packet is complete, with its sum
          obtain ⟨rfl, rfl⟩ := Prod.mk.inj htake
          rw [List.append_assoc, List.cons_append] at h ⊢
          refine ⟨(h.of_packet hpayload).2, drain_of_some ?_⟩
          rw [takeEvent_opening, takePacket_closed hpayload]
          rfl
        · exact hstay htake
      · -- the end has not come, and what is there is not too long to be kept
        have hlength := h.length_of_unfinished hclosing
        rw [takePacket_unfinished hclosing, if_neg (by omega)] at htake
        exact hstay htake
    · by_cases hinterrupt : b = interruptByte
      · subst hinterrupt
        obtain ⟨rfl, rfl⟩ := Prod.mk.inj htake
        exact ⟨h.of_outside hopening, drain_of_some rfl⟩
      · rw [takeEvent_outside hopening hinterrupt] at htake
        rw [drain_congr (takeEvent_outside hopening hinterrupt (tail ++ rest))]
        refine ih (h.of_outside hopening) htake fun hleft => ?_
        obtain ⟨rfl, rfl⟩ := Prod.mk.inj hleft
        exact ⟨h.of_outside hopening, rfl⟩

/-! ### Calls in any order -/

/-- What is done with a scanner. -/
inductive Call where
  /-- The next piece of the stream has come. -/
  | push (piece : List UInt8)
  /-- The next event is asked for. -/
  | next
deriving DecidableEq, Repr

/-- The bytes that a call brings. -/
def Call.bytes : Call → List UInt8
  | .push piece => piece
  | .next => []

/-- The stream that calls bring. -/
def stream (calls : List Call) : List UInt8 := calls.flatMap Call.bytes

/-- Do one thing with a scanner: the event that it gives, if any, and the scanner afterwards. -/
def perform (scanner : Scanner) : Call → List Event × Scanner
  | .push piece => ([], scanner.push piece)
  | .next => (scanner.next.1.toList, scanner.next.2)

/-- Do things with a scanner one after another, and then ask for events until there is none. -/
def finish (scanner : Scanner) : List Call → List Event × Scanner
  | [] => scanner.drain
  | call :: rest =>
    let (events, scanner) := scanner.perform call
    after events (scanner.finish rest)

/-- All that is done with a scanner gives what the whole stream at once gives. -/
lemma finish_eq_drain {scanner : Scanner} {calls : List Call}
    (h : Bounded (scanner.buffer ++ stream calls)) :
    scanner.finish calls = (scanner.push (stream calls)).drain := by
  induction calls generalizing scanner with
  | nil => rw [finish, push, stream, List.flatMap_nil, List.append_nil]
  | cons call rest ih =>
    rw [stream, List.flatMap_cons, ← stream] at h ⊢
    cases call with
    | push piece =>
      rw [Call.bytes, ← List.append_assoc] at h
      have hrest : (scanner.push piece).finish rest = _ := ih h
      rw [finish, perform]
      dsimp only
      rw [hrest, push, push, push, List.append_assoc]
      rfl
    | next =>
      rw [Call.bytes, List.nil_append] at h ⊢
      have htake : takeEvent scanner.buffer = (scanner.next.1, scanner.next.2.buffer) := rfl
      obtain ⟨hleft, hdrain⟩ := drain_append h htake
      have hrest : scanner.next.2.finish rest = _ := ih hleft
      rw [finish, perform]
      dsimp only
      rw [hrest]
      exact hdrain.symm

/-- The events in a stream, and the bytes that are left of it, do not depend on how the stream
is cut into pieces nor on how often and when events are asked for before its end. -/
theorem finish_eq_of_bounded {first second : List Call} (h : Bounded (stream first))
    (hstream : stream second = stream first) :
    ({} : Scanner).finish first = ({} : Scanner).finish second := by
  have hfirst : Bounded (({} : Scanner).buffer ++ stream first) := h
  have hsecond : Bounded (({} : Scanner).buffer ++ stream second) := hstream ▸ hfirst
  rw [finish_eq_drain hfirst, finish_eq_drain hsecond, hstream]

/-- A stray byte, an acknowledgement, a request to stop, a packet with a dollar sign and a byte
3 in it, and a packet whose sum is cut off; cut and asked for in the middle of all of them. -/
theorem finish_cut_in_packets :
    let first : List Call :=
      [.push [0x78, 0x2b, 0x03, 0x24, 0x6d, 0x03, 0x24, 0x23, 0x39, 0x34, 0x24, 0x63, 0x23, 0x36]]
    let second : List Call :=
      [.next, .push [0x78, 0x2b], .next, .push [0x03, 0x24, 0x6d, 0x03], .next, .next,
        .push [0x24, 0x23, 0x39], .next, .push [], .push [0x34, 0x24], .next, .next,
        .push [0x63, 0x23, 0x36]]
    Bounded (stream first) ∧ stream second = stream first ∧
      ({} : Scanner).finish first = ({} : Scanner).finish second ∧
      ({} : Scanner).finish second =
        ([.interrupt, .packet [0x6d, 0x03, 0x24]], { buffer := [0x24, 0x63, 0x23, 0x36] }) := by
  intro first second
  have hlast : Bounded [0x24, 0x63, 0x23, 0x36] :=
    @Bounded.packet [0x63] [0x36] (by decide) (by decide) .empty
  have hfirst : Bounded (stream first) :=
    .outside (by decide) <| .outside (by decide) <| .outside (by decide) <|
      @Bounded.packet [0x6d, 0x03, 0x24] _ (by decide) (by decide) hlast
  have hstream : stream second = stream first := by decide
  refine ⟨hfirst, hstream, finish_eq_of_bounded hfirst hstream, ?_⟩
  decide +kernel

end Scanner
end Packet
end RemoteDebugger
