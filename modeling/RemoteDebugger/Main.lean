/-
# The program

Carries out what a command line asks for.  All that is decided is decided elsewhere: here
files, sockets and the terminal are read, what has been read is handed to the harness or to
the console, and what they answer is written.

Every socket has a reader of its own.  The harness takes the inputs of all of them from one
channel, one after another; a reader goes on only when the harness has taken its piece.
-/
import Std.Async.DNS
import Std.Async.Select
import Std.Async.TCP
import Std.Async.Timer
import Std.Sync.Channel
import RemoteDebugger.CommandLine.Program
import RemoteDebugger.Console.Prompt
import RemoteDebugger.Link.ConsoleLink
import RemoteDebugger.Link.Harness

namespace RemoteDebugger
namespace Shell

open Std.Async Std.Net

/-! ### Terminal -/

/-- Print lines. -/
def say (lines : List String) : IO Unit := do
  let out ← IO.getStdout
  for line in lines do out.putStrLn line
  out.flush

/-- Print lines on standard error. -/
def complain (lines : List String) : IO Unit := do
  for line in lines do IO.eprintln line

/-- End the program. -/
def finish (ending : CommandLine.Ending) : IO UInt32 := do
  let out ← IO.getStdout
  out.putStr ending.out
  out.flush
  IO.eprint ending.err
  return ending.code.toUInt32

/-! ### Sockets -/

/-- A connection. -/
abbrev Stream := TCP.Socket.Client

/-- How long a reader waits before it looks whether it is still wanted, in milliseconds. -/
def patience : Nat := 100

/-- Listen at an address. -/
def listen (host : IPv4Addr) (port : UInt16) : IO TCP.Socket.Server := do
  let listener ← TCP.Socket.Server.mk
  listener.bind (.v4 { addr := host, port })
  listener.listen 128
  return listener

/-- An address as it is shown. -/
def showAddress : SocketAddress → String
  | .v4 address => CommandLine.endpoint address.addr.toString address.port
  | .v6 address => CommandLine.endpoint ("[" ++ address.addr.toString ++ "]") address.port

/-- The addresses of a host. -/
def addresses (host : String) (port : UInt16) : IO (List SocketAddress) := do
  match IPv4Addr.ofString host with
  | some addr => return [.v4 { addr, port }]
  | none =>
    let found ← (DNS.getAddrInfo host "").block
    return found.toList.map fun
      | .v4 addr => .v4 { addr, port }
      | .v6 addr => .v6 { addr, port }

/-- Connect to the first address of a host that can be reached. -/
def connect (host : String) (port : UInt16) : IO Stream := do
  let mut failure := IO.userError "no addresses to connect to"
  for address in ← addresses host port do
    try
      let stream ← TCP.Socket.Client.mk
      (stream.connect address).block
      return stream
    catch e => failure := e
  throw failure

/-- Write to a connection. -/
def write (stream : Stream) (bytes : List UInt8) : IO Unit :=
  if bytes.isEmpty then pure () else (stream.send (ByteArray.mk bytes.toArray)).block

/-- Close a connection for writing; that it may be closed already does not matter. -/
def close (stream : Stream) : IO Unit :=
  try stream.shutdown.block catch _ => pure ()

/-- The next piece of a stream, nothing if the stream has ended, `none` if nothing has come
for a while. -/
def nextPiece (stream : Stream) : IO (Option (List UInt8)) := do
  try
    let waited ← Selector.sleep (Std.Time.Millisecond.Offset.ofNat patience) |>.block
    let piece ← (Selectable.one #[
      .case (stream.recvSelector (UInt64.ofNat ClientLink.pieceLength)) fun piece =>
        return some (piece.map (·.toList) |>.getD []),
      .case waited fun _ => return none]).block
    return piece
  catch _ => return some []

/-- Read a stream to its end, or until it is not wanted any more. -/
partial def readAll (stream : Stream) (stopped : IO.Ref Bool) (accept : List UInt8 → IO Bool) :
    IO Unit := do
  unless ← stopped.get do
    match ← nextPiece stream with
    | none => readAll stream stopped accept
    | some [] => return
    | some piece => if ← accept piece then readAll stream stopped accept

/-- Serve the connections to a listener one after another. -/
partial def acceptAll (listener : TCP.Socket.Server) (stopped : IO.Ref Bool)
    (attend : Stream → IO Unit) : IO Unit := do
  unless ← stopped.get do
    match ← listener.tryAccept with
    | some stream => attend stream
    | none => IO.sleep patience.toUInt32
    acceptAll listener stopped attend

/-! ### Serving a machine -/

/-- An input on its way to the harness, and whether its sender shall go on. -/
structure Delivery where
  /-- The input. -/
  input : HarnessInput
  /-- The answer to the sender. -/
  goOn : IO.Promise Bool

/-- The connections that a harness writes to, and the channel of its inputs. -/
structure Wires where
  /-- The uplink. -/
  uplink : IO.Ref (Option Stream)
  /-- The connection of GDB. -/
  gdb : IO.Ref (Option Stream)
  /-- The inputs. -/
  inputs : Std.CloseableChannel.Sync Delivery

namespace Wires

/-- Hand an input to the harness, and wait until it has been taken. -/
def deliver (wires : Wires) (input : HarnessInput) : IO Bool := do
  let goOn ← IO.Promise.new
  match ← (wires.inputs.send { input, goOn }).toBaseIO with
  | .ok () => IO.wait (goOn.resultD false)
  | .error _ => return false

/-- Make and close the uplink as the messages of a client's piece ask for it. -/
def follow (wires : Wires) (h : Harness) (piece : List UInt8) : IO Harness := do
  let messages := h.client.map fun reader => (ClientLink.receive reader piece).1
  if let some (.ok messages) := messages then
    for message in messages do
      match message with
      | .connect handshake =>
        try wires.uplink.set (some (← connect handshake.host handshake.port))
        catch _ => pure ()
      | .disconnect => wires.uplink.set none
      | _ => pure ()
  return { h with network := if (← wires.uplink.get).isSome then .reachable else .unreachable }

/-- Write what the harness wants to be written. -/
def emit (wires : Wires) (output : HarnessOutput) (h : Harness) : IO Harness := do
  if let some stream ← wires.gdb.get then
    try write stream output.gdbBytes catch _ => pure ()
    if output.closeGdb then
      close stream
      wires.gdb.set none
  match ← wires.uplink.get with
  | none => return h
  | some stream =>
    try
      write stream output.clientBytes
      unless h.session.connected do wires.uplink.set none
      return h
    catch _ =>
      wires.uplink.set none
      return h.setUplink false

/-- Run the harness.  It stands still for good once the machine waits for an interrupt that
no device is there to send. -/
partial def run (wires : Wires) (h : Harness) : IO Unit := do
  if h.session.scheduler.live then
    if h.isBusy then
      match ← wires.inputs.tryRecv with
      | some delivery => wires.run (← take h delivery)
      | none =>
        let (output, h) := h.runSlice
        wires.run (← wires.emit output h)
    else if let some delivery ← wires.inputs.recv then
      wires.run (← take h delivery)
where
  /-- Let the harness take an input, and tell its sender whether to go on. -/
  take (h : Harness) (delivery : Delivery) : IO Harness := do
    let h ← match delivery.input with
      | .clientBytes piece => wires.follow h piece
      | _ => pure h
    let (output, h) := h.take delivery.input
    let h ← wires.emit output h
    delivery.goOn.resolve <| match delivery.input with
      | .clientBytes _ => h.client.isSome
      | .gdbBytes _ => h.gdb.isSome
      | _ => true
    return h

/-- Attend to a client. -/
def attendClient (wires : Wires) (stopped : IO.Ref Bool) (stream : Stream) : IO Unit := do
  discard <| wires.deliver .clientOpened
  readAll stream stopped fun piece => wires.deliver (.clientBytes piece)
  discard <| wires.deliver .clientClosed
  close stream

/-- Attend to GDB. -/
def attendGdb (wires : Wires) (stopped : IO.Ref Bool) (stream : Stream) : IO Unit := do
  wires.gdb.set (some stream)
  discard <| wires.deliver .gdbOpened
  readAll stream stopped fun piece => wires.deliver (.gdbBytes piece)
  discard <| wires.deliver .gdbClosed
  wires.gdb.set none
  close stream

end Wires

/-- The names of the files in a directory. -/
def fileNames (path : String) : IO (List String) := do
  let entries ← ((← IO.currentDir) / path).readDir
  let files ← entries.toList.filterM fun entry => do
    return match (← entry.path.symlinkMetadata).type with
      | .file => true
      | _ => false
  return files.map (·.fileName)

/-- What can be read of something. -/
def attempt {α : Type} (path : Option String) (read : String → IO α) : IO (Option α) := do
  match path with
  | none => return none
  | some path => try return some (← read path) catch _ => return none

/-- The files that are asked for. -/
def files (o : CommandLine.ServeOptions) : IO CommandLine.Files := do
  let names ← attempt o.tapeDirectory fileNames
  let image ← attempt o.image fun path => return (← IO.FS.readBinFile path).toList
  return { directory? := fun _ => names, file? := fun _ => image }

/-- Listen at a port of every interface. -/
def listenAnywhere (port : UInt16) :
    IO (Except CommandLine.LaunchError TCP.Socket.Server) := do
  let host := IPv4Addr.ofParts 0 0 0 0
  try return .ok (← listen host port)
  catch e => return .error (.listener (CommandLine.endpoint host.toString port) (toString e))

/-- Serve a machine. -/
def serve (o : CommandLine.ServeOptions) : IO UInt32 := do
  match o.launch (← files o) with
  | .error e => finish e.ending
  | .ok launch =>
  match Harness.start launch.machine launch.config { names := launch.tapes } .unreachable with
  | .error fault => finish (CommandLine.LaunchError.config fault).ending
  | .ok harness =>
  match ← listenAnywhere o.port with
  | .error e => finish e.ending
  | .ok clients =>
  match ← o.gdbPort.mapM listenAnywhere with
  | some (.error e) => finish e.ending
  | gdb? =>
    let gdbs := gdb?.bind (·.toOption)
    let wires : Wires :=
      { uplink := ← IO.mkRef none, gdb := ← IO.mkRef none
        inputs := ← Std.CloseableChannel.Sync.new }
    let stopped ← IO.mkRef false
    let reader (listener : TCP.Socket.Server) (attend : Stream → IO Unit) :=
      IO.asTask (acceptAll listener stopped attend) Task.Priority.dedicated
    let mut readers := [← reader clients (wires.attendClient stopped)]
    if let some listener := gdbs then
      readers := (← reader listener (wires.attendGdb stopped)) :: readers
    say (CommandLine.announcement (showAddress (← clients.getSockName))
      (← gdbs.mapM fun listener => return showAddress (← listener.getSockName)))
    wires.run harness
    for reader in readers do discard (IO.wait reader)
    return 0

/-! ### The console -/

/-- The console's connections. -/
structure Caller where
  /-- Their state. -/
  link : IO.Ref ConsoleLink
  /-- The connection to the debugger. -/
  stream : IO.Ref (Option Stream)
  /-- Whether the console is left. -/
  stopped : IO.Ref Bool

namespace Caller

/-- The connection is lost. -/
def drop (caller : Caller) : IO Unit := do
  caller.link.modify (·.drop)
  caller.stream.set none

/-- Send a message. -/
def send (caller : Caller) (message : Message) : IO (Except String Unit) := do
  match (← caller.link.get).send message with
  | .error fault => return .error fault.message
  | .ok bytes =>
    try
      if let some stream ← caller.stream.get then write stream bytes
      return .ok ()
    catch e =>
      caller.drop
      return .error ("Failed to send " ++ message.kind.name ++ ": " ++ toString e)

/-- Keep the connection to the debugger. -/
partial def keepConnected (caller : Caller) (o : CommandLine.ClientOptions) : IO Unit := do
  unless ← caller.stopped.get do
    try
      let stream ← connect o.host o.port
      let (greeting, link) := (← caller.link.get).dial .reachable
      write stream greeting
      caller.stream.set (some stream)
      caller.link.modify fun _ => link
      readAll stream caller.stopped fun _ => return true
      unless ← caller.stopped.get do caller.drop
    catch _ => IO.sleep patience.toUInt32
    caller.keepConnected o

/-- Show the reports that come on a connection. -/
def attend (caller : Caller) (stream : Stream) : IO Unit := do
  caller.link.modify fun link => { link with reader := .fresh }
  readAll stream caller.stopped fun piece => do
    match ← caller.link.modifyGet (·.receive piece) with
    | .error _ => return false
    | .ok messages =>
      say (messages.flatMap Console.messageLines)
      return true
  close stream

/-- Answer the lines that are typed. -/
partial def prompt (caller : Caller) : IO Unit := do
  let input ← IO.getStdin
  if ← input.isTty then
    IO.print ("(" ++ CommandLine.programName ++ ") ")
    (← IO.getStdout).flush
  let line ← input.getLine
  if line.isEmpty then say Console.endOfInput
  else match Console.respond line with
    | .nothing => caller.prompt
    | .answer lines => do
      say lines
      caller.prompt
    | .send message => do
      if let .error reason ← caller.send message then complain ["Error: " ++ reason]
      caller.prompt
    | .leave => say Console.farewell

end Caller

/-- Run the console. -/
def client (o : CommandLine.ClientOptions) : IO UInt32 := do
  say CommandLine.banner
  let host := IPv4Addr.ofParts 127 0 0 1
  let listener ← listen host 0
  let replies ← listener.getSockName
  let caller : Caller :=
    { link := ← IO.mkRef { handshake := { host := host.toString, port := replies.port } }
      stream := ← IO.mkRef none
      stopped := ← IO.mkRef false }
  let supervisor ← IO.asTask (caller.keepConnected o) Task.Priority.dedicated
  let printer ← IO.asTask (acceptAll listener caller.stopped caller.attend) Task.Priority.dedicated
  say (o.introduction (showAddress replies))
  try caller.prompt catch e => complain ["Error: " ++ toString e]
  discard <| caller.send .disconnect
  caller.stopped.set true
  discard (IO.wait supervisor)
  discard (IO.wait printer)
  return 0

end Shell
end RemoteDebugger

/-- Carry out a command line. -/
def main (args : List String) : IO UInt32 := do
  match RemoteDebugger.CommandLine.invocation args with
  | .error e => RemoteDebugger.Shell.finish (e.ending (← (← IO.getStderr).isTty))
  | .ok (.finish ending) => RemoteDebugger.Shell.finish ending
  | .ok (.serve o) => RemoteDebugger.Shell.serve o
  | .ok (.client o) => RemoteDebugger.Shell.client o
