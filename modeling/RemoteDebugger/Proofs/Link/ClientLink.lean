/-
# Which messages of a client arrive

The messages that a client sends lead to events in the order of their frames.  If it sends a
length that is refused, its connection ends, and the frames before that length are not all
heard: those that were complete before the piece in which the length is complete have led to
their events, the others in that piece are given up with it.  So a message may arrive or be
lost by where the stream happens to be cut.
-/
import RemoteDebugger.Link.ClientLink
import RemoteDebugger.Proofs.Wire.Stream

namespace RemoteDebugger
namespace ClientLink

open RemoteDebugger.Frame RemoteDebugger.Frame.Reader

/-- The messages in payloads; a payload that is no message is passed over. -/
def messagesIn (payloads : List (List UInt8)) : List Message :=
  payloads.filterMap fun payload => (Message.decode payload).toOption

lemma receiveAll_of_pushAll {reader : Reader} {pieces : List (List UInt8)}
    {handed : List (List (List UInt8))} {cause : WireError}
    {more : List (Except WireError (List (List UInt8)))}
    (h : (reader.pushAll pieces).1 = handed.map .ok ++ .error cause :: more) :
    receiveAll reader pieces =
      ((messagesIn handed.flatten).map Event.message ++ [.peerLost], some { cause }) := by
  induction handed generalizing reader pieces with
  | nil =>
    cases pieces with
    | nil => cases h
    | cons piece rest =>
      obtain ⟨hrefused, -⟩ := List.cons.inj h
      simp only [receiveAll, receive, hrefused]
      rfl
  | cons payloads handed ih =>
    cases pieces with
    | nil => cases h
    | cons piece rest =>
      obtain ⟨hpayloads, hrest⟩ := List.cons.inj h
      simp only [receiveAll, receive, hpayloads, ih hrest]
      simp [messagesIn]

variable {payloads : List (List UInt8)} {length : UInt32} {more : List UInt8}

/-- The messages that arrive are those of the frames that are complete before the piece that
completes the refused length. -/
lemma receiveAll_of_refused_length {before later : List (List UInt8)} {piece : List UInt8}
    (hfit : ∀ payload ∈ payloads, payload.length ≤ maxFrameLength)
    (hlong : maxFrameLength < length.toNat)
    (hcut : (before ++ piece :: later).flatten =
      payloads.flatMap wrap ++ (Word.bigEndian length ++ more))
    (hbefore : before.flatten.length < (payloads.flatMap wrap).length + 4)
    (hpiece : (payloads.flatMap wrap).length + 4 ≤ before.flatten.length + piece.length) :
    receiveAll fresh (before ++ piece :: later) =
      ((messagesIn (within payloads before.flatten.length)).map Event.message ++ [.peerLost],
        some { cause := .frameTooLarge length.toNat }) := by
  obtain ⟨handed, hresults, -, hhanded⟩ :=
    pushAll_of_refused_length hfit hlong hcut hbefore hpiece
  rw [List.replicate_succ] at hresults
  rw [receiveAll_of_pushAll hresults, hhanded]

/-- Of a stream of frames with a length behind them that is refused, every piece from the one
that completes this length on is refused for it.  All payloads have been handed out by then if
and only if no byte of a frame lies in that piece; the messages that arrive are those of the
payloads that have. -/
theorem received_before_refused_length {pieces : List (List UInt8)}
    (hfit : ∀ payload ∈ payloads, payload.length ≤ maxFrameLength)
    (hlong : maxFrameLength < length.toNat)
    (hcut : pieces.flatten = payloads.flatMap wrap ++ (Word.bigEndian length ++ more)) :
    ∃ (before : List (List UInt8)) (piece : List UInt8) (later : List (List UInt8))
        (handed : List (List (List UInt8))),
      pieces = before ++ piece :: later ∧
      before.flatten.length < (payloads.flatMap wrap).length + 4 ∧
      (payloads.flatMap wrap).length + 4 ≤ before.flatten.length + piece.length ∧
      (fresh.pushAll pieces).1 = handed.map .ok ++
        List.replicate (later.length + 1) (.error (.frameTooLarge length.toNat)) ∧
      handed.length = before.length ∧
      handed.flatten = within payloads before.flatten.length ∧
      (handed.flatten = payloads ↔ (payloads.flatMap wrap).length ≤ before.flatten.length) ∧
      receiveAll fresh pieces = ((messagesIn handed.flatten).map Event.message ++ [.peerLost],
        some { cause := .frameTooLarge length.toNat }) := by
  have hlast : (payloads.flatMap wrap).length + 3 < pieces.flatten.length := by
    rw [hcut, List.length_append, List.length_append, Word.length_bigEndian]
    omega
  obtain ⟨before, piece, later, rfl, hbefore, hpiece⟩ := exists_piece hlast
  obtain ⟨handed, hresults, hlength, hhanded⟩ :=
    pushAll_of_refused_length hfit hlong hcut (by omega) hpiece
  refine ⟨before, piece, later, handed, rfl, by omega, hpiece, hresults, hlength, hhanded, ?_, ?_⟩
  · rw [hhanded, within_eq_self_iff]
  · rw [hhanded]
    exact receiveAll_of_refused_length hfit hlong hcut (by omega) hpiece

/-- The second of two frames ends in the piece with the refused length. -/
theorem received_before_refused_length_of_two :
    let payloads := [Message.stop.encode, Message.step.encode]
    let pieces : List (List UInt8) :=
      [[0, 0, 0, 4, 0, 0, 0, 3, 0], [0, 0, 4, 0, 0, 0, 5, 0xff, 0xff, 0xff, 0xff], [0, 0]]
    (∀ payload ∈ payloads, payload.length ≤ maxFrameLength) ∧
      maxFrameLength < (0xffffffff : UInt32).toNat ∧
      pieces.flatten = payloads.flatMap wrap ++ (Word.bigEndian 0xffffffff ++ [0, 0]) ∧
      ∃ (handed : List (List (List UInt8))) (n : Nat),
        (fresh.pushAll pieces).1 =
          handed.map .ok ++ List.replicate (n + 1) (.error (.frameTooLarge 0xffffffff)) ∧
        receiveAll fresh pieces = ((messagesIn handed.flatten).map Event.message ++ [.peerLost],
          some { cause := .frameTooLarge 0xffffffff }) := by
  intro payloads pieces
  have hfit : ∀ payload ∈ payloads, payload.length ≤ maxFrameLength := by decide
  have hlong : maxFrameLength < (0xffffffff : UInt32).toNat := by decide
  have hcut : pieces.flatten =
      payloads.flatMap wrap ++ (Word.bigEndian 0xffffffff ++ [0, 0]) := by decide
  obtain ⟨before, piece, later, handed, -, -, -, hresults, -, -, -, hreceived⟩ :=
    received_before_refused_length hfit hlong hcut
  exact ⟨hfit, hlong, hcut, handed, later.length, hresults, hreceived⟩

/-- A message arrives if a piece ends with its frame, and is lost if the piece goes on with a
length that is refused. -/
theorem message_lost_with_refused_length :
    let sent := Frame.encode (.setBreakpoint 16)
    let refused : List UInt8 := [0xff, 0xff, 0xff, 0xff]
    let failure : FrameFailure := { cause := .frameTooLarge 0xffffffff }
    receiveAll fresh [sent, refused] = ([.message (.setBreakpoint 16), .peerLost], some failure) ∧
      receiveAll fresh [sent ++ refused] = ([.peerLost], some failure) ∧
      (fresh.pushAll [sent ++ refused]).1 = [.error failure.cause] := by
  intro sent refused failure
  let payloads := [(Message.setBreakpoint 16).encode]
  have hfit : ∀ payload ∈ payloads, payload.length ≤ maxFrameLength := by decide
  have hlong : maxFrameLength < (0xffffffff : UInt32).toNat := by decide
  have htwo : ([sent] ++ refused :: []).flatten =
      payloads.flatMap wrap ++ (Word.bigEndian 0xffffffff ++ []) := by decide
  have hone : ([] ++ (sent ++ refused) :: []).flatten =
      payloads.flatMap wrap ++ (Word.bigEndian 0xffffffff ++ []) := by decide
  refine ⟨?_, ?_, ?_⟩
  · exact receiveAll_of_refused_length hfit hlong htwo (by decide) (by decide)
  · exact receiveAll_of_refused_length hfit hlong hone (by decide) (by decide)
  · obtain ⟨handed, hresults, hlength, -⟩ :=
      pushAll_of_refused_length hfit hlong hone (by decide) (by decide)
    obtain rfl := List.length_eq_zero_iff.1 hlength
    exact hresults

end ClientLink
end RemoteDebugger
