/-
# The console's prompt

What becomes of the lines that a user types: each is answered at the prompt, sent to the
debugger, or ends the console.  Whatever ends it, the debugger is told that the client
leaves.
-/
import RemoteDebugger.Console.Command
import RemoteDebugger.Console.Display

namespace RemoteDebugger
namespace Console

/-- What becomes of a typed line. -/
inductive Response where
  /-- It is blank. -/
  | nothing
  /-- It is answered at the prompt. -/
  | answer (lines : List String)
  /-- It is sent to the debugger. -/
  | send (message : Message)
  /-- It ends the console. -/
  | leave
deriving DecidableEq

/-- What becomes of a typed line. -/
def respond (line : String) : Response :=
  let line := Text.trim line
  if line.isEmpty then .nothing
  else match ConsoleCommand.parse? line with
    | some .quit => .leave
    | some .help => .answer helpLines
    | some command =>
      match command.message? with
      | some message => .send message
      | none => .nothing
    | none => .answer ["Unknown command: " ++ line, "Type 'help' for available commands."]

/-- What the console prints when it is left. -/
def farewell : List String := ["Goodbye!"]

/-- What the console prints when its input ends. -/
def endOfInput : List String := ["CTRL-D"]

/-- All that a console prints and sends. -/
structure Transcript where
  /-- The printed lines. -/
  printed : List String := []
  /-- The messages that are sent. -/
  sent : List Message := []
deriving DecidableEq

/-- What the console prints and sends for lines after which the input ends. -/
def transcript : List String → Transcript
  | [] => { printed := endOfInput, sent := [.disconnect] }
  | line :: rest =>
    match respond line with
    | .nothing => transcript rest
    | .answer lines =>
      let t := transcript rest
      { t with printed := lines ++ t.printed }
    | .send message =>
      let t := transcript rest
      { t with sent := message :: t.sent }
    | .leave => { printed := farewell, sent := [.disconnect] }

end Console
end RemoteDebugger
