/-
# Events

All that reaches a session from its connections, in one type.
-/
import RemoteDebugger.Session.Request
import RemoteDebugger.Session.Serial

namespace RemoteDebugger

/-- What reaches a session from its connections. -/
inductive Event where
  /-- A message of the client. -/
  | message (message : Message)
  /-- The client's connection has ended. -/
  | peerLost
  /-- GDB has connected. -/
  | attached
  /-- A command of GDB. -/
  | command (command : SerialCommand)
  /-- GDB asks the machine to stop. -/
  | interrupt
  /-- GDB's connection has ended. -/
  | detached
deriving DecidableEq, Repr

namespace Session

/-- Handle an event. -/
def handle (s : Session) : Event → Except Fault Unit × Session
  | .message message => s.handleMessage message
  | .peerLost => (.ok (), s)
  | .attached => (.ok (), s.attach)
  | .command command => (.ok (), s.handleSerial command)
  | .interrupt => (.ok (), s.interrupt)
  | .detached => s.detach

end Session
end RemoteDebugger
