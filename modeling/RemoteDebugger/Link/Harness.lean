/-
# The harness

A harness ties a session to its connections: at most one client and at most one GDB at a
time.  All that reaches it from outside is an *input*; what it wants to be written to its
connections is the *output* of that input.  Between inputs a running machine goes on by
itself, one slice at a time, so the harness that handles inputs one after another and runs
a slice whenever there is none decides everything; reading and writing is left to whoever
runs it.
-/
import RemoteDebugger.Link.ClientLink
import RemoteDebugger.Link.SerialLink

namespace RemoteDebugger

/-- What reaches a harness from outside. -/
inductive HarnessInput where
  /-- A client has connected. -/
  | clientOpened
  /-- A piece of the client's stream. -/
  | clientBytes (piece : List UInt8)
  /-- The client's stream has ended. -/
  | clientClosed
  /-- GDB has connected. -/
  | gdbOpened
  /-- A piece of GDB's stream. -/
  | gdbBytes (piece : List UInt8)
  /-- GDB's stream has ended. -/
  | gdbClosed
  /-- A device asserts an interrupt. -/
  | interrupt (irq : Interrupt)
  /-- The symbols may have changed. -/
  | invalidate
deriving DecidableEq, Repr

/-- What a harness writes to its connections. -/
structure HarnessOutput where
  /-- The reports for the client. -/
  reports : List Message := []
  /-- The acknowledgements for GDB. -/
  acks : List UInt8 := []
  /-- The replies for GDB. -/
  replies : List Reply := []
  /-- Whether the client's connection is closed. -/
  closeClient : Bool := false
  /-- Whether GDB's connection is closed. -/
  closeGdb : Bool := false
deriving DecidableEq, Repr

namespace HarnessOutput

/-- The bytes for the client. -/
def clientBytes (output : HarnessOutput) : List UInt8 := output.reports.flatMap Frame.encode

/-- The bytes for GDB: what it has sent is acknowledged before it is answered. -/
def gdbBytes (output : HarnessOutput) : List UInt8 :=
  output.acks ++ output.replies.flatMap Reply.packet

end HarnessOutput

/-- A session and its connections. -/
structure Harness where
  /-- The session. -/
  session : Session
  /-- Whether a client that introduces itself can be reached. -/
  network : Network := .reachable
  /-- What has been read of the client's stream, if there is a client. -/
  client : Option Frame.Reader := none
  /-- The connection of GDB, if there is one. -/
  gdb : Option SerialLink := none

namespace Harness

/-- A harness for a machine, if the configuration can work. -/
def start (machine : Machine) (config : Config) (tapes : Tapes) (network : Network) :
    Except Fault Harness :=
  config.validate.map fun config =>
    { session := .create { machine } config .standard tapes false, network }

/-- What the session has sent since the last input, as output.  Reports go nowhere while
the uplink is closed. -/
def flush (h : Harness) : HarnessOutput × Harness :=
  let session := h.session
  let gdb := h.gdb.map (·.answered session.replies.size)
  let ended := gdb.any (·.isOver)
  let output : HarnessOutput :=
    { reports := if session.connected then session.sent.toList else []
      replies := if h.gdb.isSome then session.replies.toList else []
      closeGdb := ended }
  let h := { h with session := session.clearRecord, gdb }
  (output, if ended then { h with gdb := none, session := h.session.handleAll [.detached] } else h)

/-- Handle events. -/
def handle (h : Harness) (events : List Event) : Harness :=
  { h with session := h.session.handleAll events }

/-- Open or close the uplink. -/
def setUplink (h : Harness) (isOpen : Bool) : Harness :=
  { h with session := { h.session with connected := isOpen } }

/-- The client's connection has ended. -/
def loseClient (h : Harness) : Harness :=
  ({ h with client := none }.setUplink false).handle [.peerLost]

/-- Take a piece of the client's stream.  The uplink is opened before the messages of the
piece are handled. -/
def receiveClient (h : Harness) (piece : List UInt8) : HarnessOutput × Harness :=
  match h.client with
  | none => ({}, h)
  | some reader =>
    match ClientLink.receive reader piece with
    | (.error _, _) => ({ closeClient := true }, h.loseClient)
    | (.ok messages, reader) =>
      let uplink := messages.foldl (ClientLink.uplinkAfter h.network) h.session.connected
      (({ h with client := some reader }.setUplink uplink).handle (messages.map .message)).flush

/-- Take a piece of GDB's stream. -/
def receiveGdb (h : Harness) (piece : List UInt8) : HarnessOutput × Harness :=
  match h.gdb with
  | none => ({}, h)
  | some link =>
    let (acks, events, link) := link.receive piece
    let (output, h) := ({ h with gdb := some link }.handle events).flush
    ({ output with acks }, h)

/-- Take an input.  The end of a connection that the harness has closed itself is nothing
new. -/
def take (h : Harness) : HarnessInput → HarnessOutput × Harness
  | .clientOpened => ({}, { h with client := some .fresh })
  | .clientBytes piece => h.receiveClient piece
  | .clientClosed => ({}, if h.client.isSome then h.loseClient else h)
  | .gdbOpened => ({ h with gdb := some {} }.handle [.attached]).flush
  | .gdbBytes piece => h.receiveGdb piece
  | .gdbClosed => if h.gdb.isSome then ({ h with gdb := none }.handle [.detached]).flush else ({}, h)
  | .interrupt irq =>
    ({}, { h with session := { h.session with scheduler := h.session.scheduler.interrupt irq } })
  | .invalidate => ({}, { h with session := { h.session with invalidated := true } })

/-- Whether the machine can go on by itself. -/
def isBusy (h : Harness) : Bool :=
  h.session.isRunning && h.session.scheduler.live
    && !(h.session.sliceInFlight && h.session.scheduler.blocked)

/-- Let a running machine go one slice on. -/
def runSlice (h : Harness) : HarnessOutput × Harness :=
  { h with session := h.session.advance.2 }.flush

/-- Shut the machine down. -/
def shutdown (h : Harness) : Harness :=
  { h with session := { h.session with scheduler := h.session.scheduler.shutdown } }

end Harness
end RemoteDebugger
