/-
# Messages between the debugger and its client

The debugger and its client exchange twenty kinds of messages over one catalogue that
serves both directions: requests of the client (set a breakpoint, resume, watch a memory
range), and what the debugger reports back (the processor's state, memory contents,
listings, tapes, symbols).  Every kind has a number, its *tag*, which a message starts
with on the wire.
-/
import RemoteDebugger.Processor

namespace RemoteDebugger

/-- Where a client takes the debugger's reports: the debugger connects back to it. -/
structure Handshake where
  /-- The host that the client listens on. -/
  host : String
  /-- The port that the client listens on. -/
  port : UInt16
deriving DecidableEq, Repr

/-- A range of memory to look at now, and one to report whenever the machine stops. -/
structure MemoryView where
  /-- The number under which the client knows the view. -/
  id : UInt32
  /-- The first address to look at now. -/
  start : UInt32
  /-- How many bytes to look at now. -/
  size : UInt32
  /-- The first address to report at every stop. -/
  watchStart : UInt32
  /-- How many bytes to report at every stop. -/
  watchSize : UInt32
deriving DecidableEq, Repr

/-- Contents of memory. -/
structure MemoryContents where
  /-- The view that the contents belong to. -/
  id : UInt32
  /-- The address of the first byte. -/
  start : UInt32
  /-- The bytes. -/
  data : List UInt8
deriving DecidableEq, Repr

/-- A range of memory and its instructions as text, one line a word. -/
structure Listing where
  /-- The address of the first byte. -/
  start : UInt32
  /-- The bytes that are listed. -/
  memory : List UInt8
  /-- The lines. -/
  lines : List String
deriving DecidableEq, Repr

/-- A part of the tape catalogue that a client asks for. -/
structure TapeRequest where
  /-- A number that comes back with the answer. -/
  id : UInt32
  /-- The position of the first tape. -/
  start : UInt32
  /-- How many tapes, at most. -/
  size : UInt32
deriving DecidableEq, Repr

/-- A part of the tape catalogue. -/
structure TapeWindow where
  /-- The number that came with the request. -/
  id : UInt32
  /-- The position of the first tape. -/
  start : UInt32
  /-- How many tapes there are in all. -/
  total : UInt32
  /-- The names of the tapes in the window. -/
  names : List String
deriving DecidableEq, Repr

/-- A message of either direction. -/
inductive Message where
  /-- A client introduces itself. -/
  | connect (handshake : Handshake)
  /-- A client takes its leave. -/
  | disconnect
  /-- Stop the machine; also the report that it has stopped. -/
  | stop
  /-- Let the machine run. -/
  | resume
  /-- Execute one instruction. -/
  | step
  /-- Switch the machine off and on again. -/
  | restart
  /-- Stop when the machine comes to an address. -/
  | setBreakpoint (address : UInt32)
  /-- Stop no longer at an address. -/
  | unsetBreakpoint (address : UInt32)
  /-- Contents of memory. -/
  | memoryData (contents : MemoryContents)
  /-- Watch a range of memory. -/
  | memoryWatch (view : MemoryView)
  /-- Watch a range of memory no longer. -/
  | unwatch (id : UInt32)
  /-- The state of the processor. -/
  | state (snapshot : Snapshot)
  /-- Ask for the instructions in a range. -/
  | disassembly (view : MemoryView)
  /-- The instructions in a range. -/
  | disassemblyData (listing : Listing)
  /-- Ask for a part of the tape catalogue. -/
  | tapeRequest (request : TapeRequest)
  /-- A part of the tape catalogue. -/
  | tapeList (window : TapeWindow)
  /-- Put a tape into the drive. -/
  | tapeLoad (index : UInt32)
  /-- Take the tape out of the drive. -/
  | tapeUnload
  /-- The symbols; a client asks for them with none. -/
  | symbolData (symbols : List (UInt32 × String))
  /-- Go on to the next instruction, over a call. -/
  | next
deriving DecidableEq, Repr

namespace Message

/-- The kinds of messages. -/
inductive Kind where
  | connect | disconnect | stop | resume | step | restart | setBreakpoint | unsetBreakpoint
  | memoryData | memoryWatch | unwatch | state | disassembly | disassemblyData | tapeRequest
  | tapeList | tapeLoad | tapeUnload | symbolData | next
deriving DecidableEq, Repr

namespace Kind

/-- All kinds in the order of their tags, which count from one. -/
def all : List Kind :=
  [.connect, .disconnect, .stop, .resume, .step, .restart, .setBreakpoint, .unsetBreakpoint,
    .memoryData, .memoryWatch, .unwatch, .state, .disassembly, .disassemblyData, .tapeRequest,
    .tapeList, .tapeLoad, .tapeUnload, .symbolData, .next]

/-- The number of a kind on the wire. -/
def tag : Kind → UInt32
  | .connect => 1
  | .disconnect => 2
  | .stop => 3
  | .resume => 4
  | .step => 5
  | .restart => 6
  | .setBreakpoint => 7
  | .unsetBreakpoint => 8
  | .memoryData => 9
  | .memoryWatch => 10
  | .unwatch => 11
  | .state => 12
  | .disassembly => 13
  | .disassemblyData => 14
  | .tapeRequest => 15
  | .tapeList => 16
  | .tapeLoad => 17
  | .tapeUnload => 18
  | .symbolData => 19
  | .next => 20

/-- The kind with a given tag. -/
def ofTag? (tag : UInt32) : Option Kind :=
  all.find? (·.tag == tag)

/-- The name of a kind. -/
def name : Kind → String
  | .connect => "Connect"
  | .disconnect => "Disconnect"
  | .stop => "Stop"
  | .resume => "Resume"
  | .step => "Step"
  | .restart => "Restart"
  | .setBreakpoint => "SetBreakpoint"
  | .unsetBreakpoint => "UnsetBreakpoint"
  | .memoryData => "MemData"
  | .memoryWatch => "MemWatch"
  | .unwatch => "Unwatch"
  | .state => "State"
  | .disassembly => "Disassembly"
  | .disassemblyData => "DisassemblyData"
  | .tapeRequest => "TapeRequest"
  | .tapeList => "TapeList"
  | .tapeLoad => "TapeLoad"
  | .tapeUnload => "TapeUnload"
  | .symbolData => "SymbolData"
  | .next => "Next"

@[simp] theorem ofTag?_tag (kind : Kind) : ofTag? kind.tag = some kind := by
  cases kind <;> rfl

theorem tag_of_ofTag? {tag : UInt32} {kind : Kind} (h : ofTag? tag = some kind) :
    kind.tag = tag := by
  simpa using List.find?_some h

end Kind

/-- The kind of a message. -/
def kind : Message → Kind
  | .connect _ => .connect
  | .disconnect => .disconnect
  | .stop => .stop
  | .resume => .resume
  | .step => .step
  | .restart => .restart
  | .setBreakpoint _ => .setBreakpoint
  | .unsetBreakpoint _ => .unsetBreakpoint
  | .memoryData _ => .memoryData
  | .memoryWatch _ => .memoryWatch
  | .unwatch _ => .unwatch
  | .state _ => .state
  | .disassembly _ => .disassembly
  | .disassemblyData _ => .disassemblyData
  | .tapeRequest _ => .tapeRequest
  | .tapeList _ => .tapeList
  | .tapeLoad _ => .tapeLoad
  | .tapeUnload => .tapeUnload
  | .symbolData _ => .symbolData
  | .next => .next

end Message
end RemoteDebugger
