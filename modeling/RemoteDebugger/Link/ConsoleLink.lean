/-
# The console's connection

The console keeps a connection to the debugger, made again whenever it is lost, and begins
each with the handshake that says where it takes reports.  A message is sent only while
there is a connection.  Reports come in on the connection that the debugger makes back;
what is no message among them is passed over.
-/
import RemoteDebugger.Link.ClientLink

namespace RemoteDebugger

/-- The console's two connections. -/
structure ConsoleLink where
  /-- Where the console takes reports. -/
  handshake : Handshake
  /-- Whether there is a connection to the debugger. -/
  connected : Bool := false
  /-- What has been read of the reports. -/
  reader : Frame.Reader := .fresh
deriving DecidableEq, Repr

namespace ConsoleLink

/-- Try to connect, and say what a new connection begins with. -/
def dial (link : ConsoleLink) (network : Network) : List UInt8 × ConsoleLink :=
  if link.connected then ([], link)
  else match network.connect with
    | .ok () => (Frame.encode (.connect link.handshake), { link with connected := true })
    | .error _ => ([], link)

/-- The connection to the debugger is lost. -/
def drop (link : ConsoleLink) : ConsoleLink := { link with connected := false }

/-- The bytes that a message is sent as. -/
def send (link : ConsoleLink) (message : Message) : Except Fault (List UInt8) :=
  if link.connected then .ok (Frame.encode message) else .error .notConnected

/-- Take the next piece of the reports. -/
def receive (link : ConsoleLink) (piece : List UInt8) :
    Except ClientLink.FrameFailure (List Message) × ConsoleLink :=
  let (messages, reader) := ClientLink.receive link.reader piece
  (messages, { link with reader })

end ConsoleLink
end RemoteDebugger
