/-
# GDB's connection

What GDB sends arrives as a stream of bytes.  Every packet in it is acknowledged, with a
plus sign or, if its sum is wrong, with a minus sign that asks for it again; a packet that
is right is a command.

The connection ends when GDB closes it, at once when GDB kills the target, and when GDB
has left the target and all its commands have been answered.
-/
import RemoteDebugger.Serial.Scanner
import RemoteDebugger.Session.Event

namespace RemoteDebugger

namespace Packet.Event

/-- The acknowledgement of what was found in the stream. -/
def acknowledgement : Packet.Event → List UInt8
  | .packet _ => [0x2b]
  | .mismatch .. => [0x2d]
  | .interrupt => []

/-- What was found in the stream, as an event for a session. -/
def toEvent? : Packet.Event → Option RemoteDebugger.Event
  | .packet payload => some (.command (SerialCommand.parse payload))
  | .mismatch .. => none
  | .interrupt => some .interrupt

end Packet.Event

namespace Session

/-- Handle events one after another; a failure does not keep the rest from being
handled. -/
def handleAll (s : Session) (events : List Event) : Session :=
  events.foldl (fun s event => (s.handle event).2) s

/-- Take the next piece of GDB's stream: the acknowledgements, the scanner and the session
afterwards. -/
def receiveSerial (s : Session) (scanner : Packet.Scanner) (piece : List UInt8) :
    List UInt8 × Packet.Scanner × Session :=
  let (found, scanner) := (scanner.push piece).drain
  (found.flatMap Packet.Event.acknowledgement, scanner,
    s.handleAll (found.filterMap Packet.Event.toEvent?))

end Session

/-- A connection of GDB. -/
structure SerialLink where
  /-- What has been read and not been scanned. -/
  scanner : Packet.Scanner := {}
  /-- How many commands have not been answered. -/
  unanswered : Nat := 0
  /-- Whether GDB has left the target. -/
  leaving : Bool := false
  /-- Whether GDB has killed the target. -/
  killed : Bool := false
deriving DecidableEq, Repr

namespace SerialLink

/-- Whether the connection has come to its end. -/
def isOver (link : SerialLink) : Bool :=
  link.killed || (link.leaving && link.unanswered == 0)

/-- So many replies have been sent. -/
def answered (link : SerialLink) (replies : Nat) : SerialLink :=
  { link with unanswered := link.unanswered - replies }

/-- The connection after a command of GDB. -/
def afterCommand (link : SerialLink) : SerialCommand → SerialLink
  | .kill => { link with killed := true }
  | .detach => { link with leaving := true, unanswered := link.unanswered + 1 }
  | _ => { link with unanswered := link.unanswered + 1 }

/-- The acknowledgements and the events of what was found in the stream; what GDB sends
after it has killed the target is not looked at. -/
def accept (link : SerialLink) : List Packet.Event →
    List UInt8 × List RemoteDebugger.Event × SerialLink
  | [] => ([], [], link)
  | found :: rest =>
    let event? := found.toEvent?
    let after := match event? with
      | some (.command command) => link.afterCommand command
      | _ => link
    if after.killed then (found.acknowledgement, event?.toList, after)
    else
      let (acks, events, link) := accept after rest
      (found.acknowledgement ++ acks, event?.toList ++ events, link)

/-- Take the next piece of GDB's stream. -/
def receive (link : SerialLink) (piece : List UInt8) :
    List UInt8 × List RemoteDebugger.Event × SerialLink :=
  let (found, scanner) := (link.scanner.push piece).drain
  accept { link with scanner } found

end SerialLink
end RemoteDebugger
