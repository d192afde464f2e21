/-
# Commands of the console

What a user types at the client's prompt: a word, which may be abbreviated, and numbers.
Most commands are sent to the debugger as one message each.  Numbers that are left out
have usual values, but a number that is no number makes the line unknown, like a word that
is not known.  Words and numbers behind those that a command needs are not looked at.
-/
import RemoteDebugger.Console.Address
import RemoteDebugger.Wire.Message

namespace RemoteDebugger

/-- A command of the console. -/
inductive ConsoleCommand where
  /-- Set a breakpoint. -/
  | break (address : UInt32)
  /-- Take a breakpoint away. -/
  | delete (address : UInt32)
  /-- Let the machine run. -/
  | continue
  /-- Stop the machine. -/
  | stop
  /-- Execute one instruction. -/
  | step
  /-- Go on to the next instruction, over a call. -/
  | next
  /-- Switch the machine off and on again. -/
  | restart
  /-- Watch a range of memory. -/
  | watch (id start size : UInt32)
  /-- Watch a range of memory no longer. -/
  | unwatch (id : UInt32)
  /-- Show the instructions in a range. -/
  | disassemble (start size : UInt32)
  /-- Show the symbols. -/
  | symbols
  /-- Show a part of the tape catalogue. -/
  | tapes (start size : UInt32)
  /-- Put a tape into the drive. -/
  | load (index : UInt32)
  /-- Take the tape out of the drive. -/
  | unload
  /-- Show what commands there are. -/
  | help
  /-- Leave the console. -/
  | quit
deriving DecidableEq, Repr

namespace ConsoleCommand

/-- The size of a watched range if none is given. -/
def defaultWatchSize : UInt32 := 4

/-- The size of a listed range if none is given. -/
def defaultListingSize : UInt32 := 0x40

/-- The number of tapes to show if none is given. -/
def defaultTapeCount : UInt32 := 16

/-- The number in a word. -/
def number? (word : String) : Option UInt32 := (Console.parseAddress word).toOption

/-- The number among the arguments at a position. -/
def argument? (arguments : List String) (position : Nat) : Option UInt32 :=
  arguments[position]?.bind number?

/-- The number among the arguments at a position, or its usual value if it is left out. -/
def argumentOr? (arguments : List String) (position : Nat) (usual : UInt32) : Option UInt32 :=
  match arguments[position]? with
  | some word => number? word
  | none => some usual

/-- The command of a word and its arguments. -/
def ofWord? (word : String) (arguments : List String) : Option ConsoleCommand :=
  match word with
  | "break" | "b" => (argument? arguments 0).map .break
  | "delete" | "d" => (argument? arguments 0).map .delete
  | "continue" | "c" => some .continue
  | "stop" => some .stop
  | "step" | "s" => some .step
  | "next" | "n" => some .next
  | "restart" => some .restart
  | "watch" | "w" => do
    return .watch (← argument? arguments 0) (← argument? arguments 1)
      (← argumentOr? arguments 2 defaultWatchSize)
  | "unwatch" => (argument? arguments 0).map .unwatch
  | "disas" | "x" => do
    return .disassemble (← argument? arguments 0)
      (← argumentOr? arguments 1 defaultListingSize)
  | "symbols" | "sym" => some .symbols
  | "tapes" => do
    return .tapes (← argumentOr? arguments 0 0) (← argumentOr? arguments 1 defaultTapeCount)
  | "load" => (argument? arguments 0).map .load
  | "unload" => some .unload
  | "help" | "h" | "?" => some .help
  | "quit" | "q" | "exit" => some .quit
  | _ => none

/-- The command in a line. -/
def parse? (line : String) : Option ConsoleCommand :=
  match Text.words line with
  | [] => none
  | word :: arguments => ofWord? word arguments

/-- The message that a command is sent as; `help` and `quit` are not sent. -/
def message? : ConsoleCommand → Option Message
  | .break address => some (.setBreakpoint address)
  | .delete address => some (.unsetBreakpoint address)
  | .continue => some .resume
  | .stop => some .stop
  | .step => some .step
  | .next => some .next
  | .restart => some .restart
  | .watch id start size =>
    some (.memoryWatch { id, start, size, watchStart := start, watchSize := size })
  | .unwatch id => some (.unwatch id)
  | .disassemble start size =>
    some (.disassembly { id := 0, start, size, watchStart := 0, watchSize := 0 })
  | .symbols => some (.symbolData [])
  | .tapes start size => some (.tapeRequest { id := 0, start, size })
  | .load index => some (.tapeLoad index)
  | .unload => some .tapeUnload
  | .help | .quit => none

end ConsoleCommand
end RemoteDebugger
