/-
# Messages on the wire

A message arrives at the other side if a frame reader at the start of its stream takes
exactly one payload out of the message's frame and that payload is read as the message.
The messages that arrive are the well-formed ones that fit a frame.
-/
import RemoteDebugger.Proofs.Wire.RoundTrip
import RemoteDebugger.Proofs.Wire.Stream

namespace RemoteDebugger

namespace Frame.Reader

/-- A payload that fits a frame is taken out of its frame. -/
lemma payloads_push_wrap {payload : List UInt8} (h : payload.length ≤ maxFrameLength) :
    (fresh.push (wrap payload)).payloads = .ok [payload] := by
  rw [push_fresh, ← List.append_nil (wrap payload), readLength_wrap_append h,
    readLength_of_short (by decide)]
  rfl

/-- What is taken out of a frame fits one, even if the frame's own payload does not. -/
lemma length_le_of_push_wrap {payload taken : List UInt8}
    (h : (fresh.push (wrap payload)).payloads = .ok [taken]) :
    taken.length ≤ maxFrameLength := by
  -- a length that loses its upper part announces less than there is
  have hle : (UInt32.ofNat payload.length).toNat ≤ payload.length := by
    rw [UInt32.toNat_ofNat']
    exact Nat.mod_le _ _
  rw [push_fresh, wrap, Message.count, readLength_bigEndian] at h
  split at h
  · cases h
  · next hfits =>
    rw [readPayload_of_le hle] at h
    cases hrest : (readLength (payload.drop (UInt32.ofNat payload.length).toNat)).payloads with
    | error e =>
      rw [Outcome.cons, hrest] at h
      cases h
    | ok payloads =>
      rw [Outcome.cons, hrest] at h
      obtain ⟨rfl, -⟩ := List.cons.inj (Except.ok.inj h)
      rw [List.length_take]
      omega

end Frame.Reader

namespace Message

/-- A frame reader at the start of its stream takes exactly one payload out of the message's
frame, and the payload is read as the message. -/
def SurvivesWire (message : Message) : Prop :=
  ∃ payload, (Frame.Reader.fresh.push (Frame.encode message)).payloads = .ok [payload] ∧
    decode payload = .ok message

/-- The messages that arrive are the well-formed ones that fit a frame. -/
theorem survivesWire_iff {message : Message} :
    message.SurvivesWire ↔ message.WellFormed ∧ message.encode.length ≤ maxFrameLength := by
  constructor
  · rintro ⟨payload, hpush, hdecode⟩
    obtain ⟨hwell, hlength⟩ := wellFormed_of_decode hdecode
    exact ⟨hwell, Nat.le_trans hlength (Frame.Reader.length_le_of_push_wrap hpush)⟩
  · rintro ⟨hwell, hlength⟩
    exact ⟨message.encode, Frame.Reader.payloads_push_wrap hlength, decode_encode hwell⟩

end Message
end RemoteDebugger
