/-
# Requests of the client

Each message of a client is carried out at once.  A request that fails says why; reports
and other messages that are not requests are passed over.
-/
import RemoteDebugger.Session.Execution

namespace RemoteDebugger
namespace Session

/-- A client has connected: it is told how things stand, and a machine that has never run
begins to. -/
def connect (s : Session) : Except Fault Unit × Session :=
  let updated := s.pushUpdate
  if !updated.started && !updated.isRunning then updated.resume else (.ok (), updated)

/-- Watch a range for the client, and send what the range to look at holds, unless that
range is empty. -/
def watch (s : Session) (view : MemoryView) : Except Fault Unit × Session :=
  if view.size = 0 then (.ok (), { s with watches := s.watches.register view })
  else match s.readMemory view.start view.size.toNat with
    | .error fault => (.error fault, s)
    | .ok data =>
      (.ok (), { s with watches := s.watches.register view }.send
        (.memoryData { id := view.id, start := view.start, data }))

/-- Watch a range no longer. -/
def unwatch (s : Session) (id : UInt32) : Except Fault Unit × Session :=
  match s.watches.remove id with
  | .error fault => (.error fault, s)
  | .ok (_, watches) => (.ok (), { s with watches })

/-- Bytes as words, the least significant byte of each first. -/
def wordsOf : List UInt8 → List UInt32
  | b₀ :: b₁ :: b₂ :: b₃ :: rest => Word.ofBytes b₃ b₂ b₁ b₀ :: wordsOf rest
  | _ => []

/-- The instructions in the whole words of a range, as they would be without
breakpoints. -/
def listing (s : Session) (view : MemoryView) : Except Fault Listing := do
  let memory ← s.readMemory view.start (4 * (view.size.toNat / 4))
  let words := wordsOf memory
  let lines := s.disassembler.lines view.start words s.symbols
  if lines.length = words.length then
    return { start := view.start, memory, lines }
  else throw (.lineCount lines.length words.length)

/-- Put a tape into the drive. -/
def loadTape (s : Session) (index : UInt32) : Except Fault Unit × Session :=
  match s.tapes.load index with
  | .error fault => (.error fault, s)
  | .ok (_, tapes) => (.ok (), { s with tapes })

/-- Take the tape out of the drive; the symbols may have gone with it. -/
def unloadTape (s : Session) : Session :=
  { s with tapes := s.tapes.unload, invalidated := true }

/-- A part of the tape catalogue. -/
def tapeWindow (s : Session) (request : TapeRequest) : TapeWindow :=
  { id := request.id, start := request.start, total := UInt32.ofNat s.tapes.size,
    names := s.tapes.window request.start request.size }

/-- Carry a message out. -/
def handleMessage (s : Session) (message : Message) : Except Fault Unit × Session :=
  match message with
  | .connect _ => s.connect
  | .stop => (.ok (), s.halt .requested)
  | .resume => s.resume
  | .step =>
    let (outcome, s) := s.step
    (outcome.map fun _ => (), s)
  | .next => s.next
  | .restart => s.restart
  | .setBreakpoint address =>
    let (outcome, s) := s.setBreakpoint address
    (outcome.map fun _ => (), s)
  | .unsetBreakpoint address => s.unsetBreakpoint address
  | .memoryWatch view => s.watch view
  | .unwatch id => s.unwatch id
  | .disassembly view =>
    match s.listing view with
    | .error fault => (.error fault, s)
    | .ok listing => (.ok (), s.send (.disassemblyData listing))
  | .tapeRequest request => (.ok (), s.send (.tapeList (s.tapeWindow request)))
  | .tapeLoad index => s.loadTape index
  | .tapeUnload => (.ok (), s.unloadTape)
  | .symbolData [] => (.ok (), s.sendSymbols)
  | .symbolData (_ :: _) | .disconnect | .memoryData _ | .state _ | .disassemblyData _
  | .tapeList _ => (.ok (), s)

end Session
end RemoteDebugger
