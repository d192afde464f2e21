/-
# What a scanner takes from the front

The bytes that a scanner holds begin with a byte outside of packets or with the opening of a
packet, and then the first closing decides: where there is none the packet is unfinished, and
where there is one the two bytes behind it, if they have come, are the packet's sum.  For each
of these beginnings this module says which event is taken and what is left.
-/
import Mathlib.Data.List.TakeWhile
import RemoteDebugger.Serial.Scanner

namespace RemoteDebugger
namespace Packet

/-- The sum that a packet is sent with is read back. -/
lemma readSum?_byteDigits (b : UInt8) : readSum? (Hex.byteDigits b) = some b := by
  rw [readSum?, Hex.read_byteDigits]
  exact congrArg some UInt8.ofNat_toNat

/-- A packet that is sent with its sum is found as it is. -/
lemma Event.ofPacket_checksum (payload : List UInt8) :
    Event.ofPacket payload (Hex.byteDigits (checksum payload)) = .packet payload := by
  rw [Event.ofPacket, readSum?_byteDigits, if_pos rfl]

namespace Scanner

variable {b : UInt8} {payload behind rest : List UInt8}

/-! ### One event -/

lemma ne_closing (h : closing ∉ payload) : ∀ b ∈ payload, (b != closing) = true := by
  intro b hb
  rw [bne_iff_ne]
  rintro rfl
  exact h hb

lemma takeEvent_outside (hopening : b ≠ opening) (hinterrupt : b ≠ interruptByte)
    (rest : List UInt8) : takeEvent (b :: rest) = takeEvent rest := by
  rw [takeEvent, if_neg (by simpa using hopening), if_neg (by simpa using hinterrupt)]

lemma takeEvent_interrupt (rest : List UInt8) :
    takeEvent (interruptByte :: rest) = (some .interrupt, rest) := rfl

lemma takeEvent_opening (bytes : List UInt8) :
    takeEvent (opening :: bytes) = takePacket bytes := rfl

lemma takeWhile_closed (h : closing ∉ payload) (behind : List UInt8) :
    (payload ++ closing :: behind).takeWhile (· != closing) = payload := by
  rw [List.takeWhile_append_of_pos (ne_closing h)]
  exact List.append_nil payload

lemma dropWhile_closed (h : closing ∉ payload) (behind : List UInt8) :
    (payload ++ closing :: behind).dropWhile (· != closing) = closing :: behind := by
  rw [List.dropWhile_append_of_pos (ne_closing h)]
  rfl

/-- Bytes have only one first closing. -/
lemma closed_inj {payload' behind' : List UInt8} (h : closing ∉ payload) (h' : closing ∉ payload')
    (heq : payload ++ closing :: behind = payload' ++ closing :: behind') :
    payload = payload' ∧ behind = behind' := by
  have hpayload := congrArg (List.takeWhile (· != closing)) heq
  have hbehind := congrArg (List.dropWhile (· != closing)) heq
  rw [takeWhile_closed h, takeWhile_closed h'] at hpayload
  rw [dropWhile_closed h, dropWhile_closed h'] at hbehind
  exact ⟨hpayload, (List.cons.inj hbehind).2⟩

lemma takePacket_closed (h : closing ∉ payload) (behind : List UInt8) :
    takePacket (payload ++ closing :: behind) =
      match behind with
      | d₁ :: d₀ :: rest => (some (.ofPacket payload [d₁, d₀]), rest)
      | _ => (none, opening :: (payload ++ closing :: behind)) := by
  rw [takePacket, dropWhile_closed h, takeWhile_closed h]
  match behind with
  | [] => rfl
  | [_] => rfl
  | _ :: _ :: _ => rfl

/-- A packet whose end has not come is left for later if it is not too long for that. -/
lemma takePacket_unfinished (h : closing ∉ payload) :
    takePacket payload =
      (none, if maxLength < payload.length + 1 then [] else opening :: payload) := by
  have hdrop : payload.dropWhile (· != closing) = [] :=
    List.dropWhile_eq_nil_iff.2 (ne_closing h)
  rw [takePacket, hdrop]

/-! ### All events -/

/-- What a scanner gives if it has given some events before. -/
def after (events : List Event) (result : List Event × Scanner) : List Event × Scanner :=
  (events ++ result.1, result.2)

lemma drain_of_none {left : List UInt8} (h : takeEvent rest = (none, left)) :
    ({ buffer := rest } : Scanner).drain = ([], { buffer := left }) := by
  unfold drain
  split
  · next heq => rw [h] at heq; cases heq; rfl
  · next heq => rw [h] at heq; cases heq

lemma drain_of_some {event : Event} {left : List UInt8} (h : takeEvent rest = (some event, left)) :
    ({ buffer := rest } : Scanner).drain =
      after [event] ({ buffer := left } : Scanner).drain := by
  rw [drain]
  split
  · next heq => rw [h] at heq; cases heq
  · next heq => rw [h] at heq; cases heq; rfl

/-- Bytes that give the same event give the same events. -/
lemma drain_congr {bytes : List UInt8} (h : takeEvent bytes = takeEvent rest) :
    ({ buffer := bytes } : Scanner).drain = ({ buffer := rest } : Scanner).drain := by
  rcases hrest : takeEvent rest with ⟨_ | event, left⟩
  · rw [drain_of_none (h.trans hrest), drain_of_none hrest]
  · rw [drain_of_some (h.trans hrest), drain_of_some hrest]

end Scanner
end Packet
end RemoteDebugger
