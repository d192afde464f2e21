/-
# The client's connection

What a client sends arrives as a stream of frames, read in pieces.  A payload that is no
message is passed over; a length that is too great ends the connection, and the payloads
of that piece are lost with it.

Reports go the other way on a connection of their own, the *uplink*.  The debugger opens
it when the client introduces itself, and closes it when the client takes its leave and
when its stream ends.
-/
import RemoteDebugger.Link.Network
import RemoteDebugger.Session.Event
import RemoteDebugger.Wire.Decoding
import RemoteDebugger.Wire.Frame

namespace RemoteDebugger

/-- Why a payload has no effect. -/
inductive Refusal where
  /-- It is no message. -/
  | malformed (cause : WireError)
  /-- It is a message that cannot be carried out. -/
  | failed (fault : Fault)
deriving DecidableEq, Repr

namespace Session

/-- Carry out the message in a payload. -/
def handlePayload (s : Session) (payload : List UInt8) : Except Refusal Unit × Session :=
  match Message.decode payload with
  | .error cause => (.error (.malformed cause), s)
  | .ok message =>
    let (outcome, s) := s.handleMessage message
    (outcome.mapError .failed, s)

/-- Carry out the messages in payloads, one after another. -/
def handlePayloads (s : Session) : List (List UInt8) → List (Except Refusal Unit) × Session
  | [] => ([], s)
  | payload :: rest =>
    let (outcome, s) := s.handlePayload payload
    let (outcomes, s) := s.handlePayloads rest
    (outcome :: outcomes, s)

/-- Take the next piece of a client's stream: what came of each payload it completes, the
reader and the session afterwards. -/
def receiveFrames (s : Session) (reader : Frame.Reader) (piece : List UInt8) :
    Except WireError (List (Except Refusal Unit)) × Frame.Reader × Session :=
  let outcome := reader.push piece
  match outcome.payloads with
  | .error cause => (.error cause, outcome.reader, s)
  | .ok payloads =>
    let (outcomes, s) := s.handlePayloads payloads
    (.ok outcomes, outcome.reader, s)

end Session

namespace ClientLink

/-- The most bytes that are read from a stream at a time. -/
def pieceLength : Nat := 4096

/-- Why a client's connection ends before its stream does. -/
structure FrameFailure where
  /-- What is wrong with the stream. -/
  cause : WireError
deriving DecidableEq, Repr

/-- The wording of the end of a connection. -/
def FrameFailure.message (failure : FrameFailure) : String :=
  "Unrecoverable frame error: " ++ failure.cause.message

/-- The messages that the next piece of a stream completes, and the reader afterwards. -/
def receive (reader : Frame.Reader) (piece : List UInt8) :
    Except FrameFailure (List Message) × Frame.Reader :=
  let outcome := reader.push piece
  (match outcome.payloads with
    | .ok payloads => .ok (payloads.filterMap fun payload => (Message.decode payload).toOption)
    | .error cause => .error { cause },
    outcome.reader)

/-- Whether the uplink is open after a message, if it can be opened at all; a client that
cannot be reached leaves an uplink as it is. -/
def uplinkAfter (network : Network) (isOpen : Bool) : Message → Bool
  | .connect _ => match network.connect with
    | .ok () => true
    | .error _ => isOpen
  | .disconnect => false
  | _ => isOpen

/-- The events that the pieces of a stream lead to, and why the connection ended if it did
before the stream. -/
def receiveAll (reader : Frame.Reader) :
    List (List UInt8) → List Event × Option FrameFailure
  | [] => ([.peerLost], none)
  | piece :: rest =>
    match receive reader piece with
    | (.error failure, _) => ([.peerLost], some failure)
    | (.ok messages, reader) =>
      let (events, failure) := receiveAll reader rest
      (messages.map Event.message ++ events, failure)

/-- A stream in the pieces in which it is read. -/
def pieces (stream : List UInt8) : List (List UInt8) :=
  match stream with
  | [] => []
  | b :: rest => (b :: rest.take (pieceLength - 1)) :: pieces (rest.drop (pieceLength - 1))
termination_by stream.length
decreasing_by simp only [List.length_drop, List.length_cons]; omega

/-- The events of one client's connection.  If the debugger is being shut down its stream
is not read; if nobody takes events there are none, and reading ends at the first
message. -/
def serve (shutDown listened : Bool) (stream : List UInt8) :
    List Event × Option FrameFailure :=
  if shutDown then (if listened then [.peerLost] else [], none)
  else
    let (events, failure) := receiveAll .fresh (pieces stream)
    if listened then (events, failure)
    else if events = [.peerLost] then ([], failure)
    else ([], none)

end ClientLink
end RemoteDebugger
