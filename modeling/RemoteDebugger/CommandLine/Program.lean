/-
# The program's commands

The program has two commands: `serve` runs a machine under the debugger and waits for a
client and for GDB, `client` is the console.  What a command line asks for is decided here,
and so is whether a machine can be served; carrying it out is left to the main program.
-/
import RemoteDebugger.CommandLine.Arguments
import RemoteDebugger.CommandLine.Files
import RemoteDebugger.Config
import RemoteDebugger.Machine.Basic
import RemoteDebugger.Tape

namespace RemoteDebugger
namespace CommandLine

/-- The name of the program. -/
def programName : String := "synapse"

/-- The version of the program. -/
def version : String := "0.1.0"

/-- How a machine is to be served. -/
structure ServeOptions where
  /-- The port for the client. -/
  port : UInt16 := 4141
  /-- The port for GDB, if GDB may connect. -/
  gdbPort : Option UInt16 := none
  /-- The least size of memory. -/
  memorySize : UInt32 := 0x400000
  /-- The file that memory starts from. -/
  image : Option String := none
  /-- The directory whose files are the tapes. -/
  tapeDirectory : Option String := none
  /-- How many cycles a slice has. -/
  frameCycles : Option UInt32 := none
  /-- Where the symbols are. -/
  symbolsAddress : Option UInt32 := none
deriving DecidableEq, Repr

/-- Where the console finds the debugger. -/
structure ClientOptions where
  /-- The host. -/
  host : String := "127.0.0.1"
  /-- The port. -/
  port : UInt16 := 4141
deriving DecidableEq, Repr

/-- An address as it is shown. -/
def endpoint (host : String) (port : UInt16) : String := host ++ ":" ++ toString port

/-- What is printed when a machine is served: where the client and GDB may connect. -/
def announcement (client : String) (gdb : Option String) : List String :=
  ("Private protocol listening on " ++ client)
    :: (gdb.map ("GDB remote listening on " ++ ·)).toList

/-- What the console prints first. -/
def banner : List String := ["Synapse - Remote Debugger", "Version " ++ version, ""]

/-- What the console prints once it can take reports. -/
def ClientOptions.introduction (o : ClientOptions) (replies : String) : List String :=
  ["Connecting to " ++ endpoint o.host o.port ++ " (replies on " ++ replies ++ ")",
    "Type 'help' for available commands, 'quit' to exit.", ""]

/-- What the options of `serve` are for. -/
def serveAbout : String := "Run a machine under the debugging harness"

/-- What the options of `client` are for. -/
def clientAbout : String := "Connect to a running harness"

/-- The options of `serve`. -/
def serveOptions : List (OptionSpec ServeOptions) :=
  [{ name := "port", letter := some 'p', placeholder := "PORT"
     set := fun value o => (readPort value).map fun port => { o with port }
     help := "Port for the private protocol [default: 4141]" },
    { name := "gdb-port", letter := some 'g', placeholder := "GDB_PORT"
      set := fun value o => (readPort value).map fun port => { o with gdbPort := some port }
      help := "Port for GDB remote connections" },
    { name := "memory-size", letter := some 'm', placeholder := "MEMORY_SIZE"
      set := fun value o => (readAddress value).map fun memorySize => { o with memorySize }
      help := "Size of the machine memory in bytes [default: 0x400000]" },
    { name := "image", letter := some 'i', placeholder := "IMAGE", allowsEmpty := false
      set := fun value o => .ok { o with image := some value }
      help := "Memory image loaded at address 0" },
    { name := "tape-dir", letter := some 't', placeholder := "TAPE_DIR", allowsEmpty := false
      set := fun value o => .ok { o with tapeDirectory := some value }
      help := "Directory whose files make up the tape catalog" },
    { name := "frame-cycles", placeholder := "FRAME_CYCLES"
      set := fun value o => (readAddress value).map fun n => { o with frameCycles := some n }
      help := "Cycles executed per slice while running" },
    { name := "symbols-addr", placeholder := "SYMBOLS_ADDR"
      set := fun value o => (readAddress value).map fun n => { o with symbolsAddress := some n }
      help := "Address of the symbol table in machine memory" }]

/-- The options of `client`. -/
def clientOptions : List (OptionSpec ClientOptions) :=
  [{ name := "host", placeholder := "HOST"
     set := fun host o => .ok { o with host }
     help := "Host of the harness [default: 127.0.0.1]" },
    { name := "port", letter := some 'p', placeholder := "PORT"
      set := fun value o => (readPort value).map fun port => { o with port }
      help := "Port of the harness [default: 4141]" }]

/-- What `help` is for. -/
def helpAbout : String := "Print this message or the help of the given subcommand(s)"

/-- The help for the program. -/
def programHelp : List String :=
  ["Remote debugging harness for a stepped CPU emulation", "",
    "Usage: " ++ programName ++ " <COMMAND>", "", "Commands:"]
    ++ columns [("serve", serveAbout), ("client", clientAbout),
      ("help", helpAbout)]
    ++ ["", "Options:"]
    ++ columns [("-h, --help", "Print help"), ("-V, --version", "Print version")]

/-- The help for `serve`. -/
def serveHelp : List String := helpFor programName "serve" serveAbout serveOptions

/-- The help for `client`. -/
def clientHelp : List String := helpFor programName "client" clientAbout clientOptions

/-- The help for `help`. -/
def helpHelp : List String :=
  [helpAbout, "", "Usage: " ++ programName ++ " help [COMMAND]...", "", "Arguments:"]
    ++ columns [("[COMMAND]...", "Print help for the subcommand(s)")]

/-- The help for a command, if there is such a command. -/
def helpOn? (name : String) : Option (List String) :=
  match name with
  | "serve" => some serveHelp
  | "client" => some clientHelp
  | "help" => some helpHelp
  | _ => none

/-- Lines as text. -/
def lineText (lines : List String) : String := String.join (lines.map (· ++ "\n"))

/-- How the program ends without having served anything or anyone. -/
structure Ending where
  /-- The exit code. -/
  code : UInt8
  /-- What is printed on standard output. -/
  out : String := ""
  /-- What is printed on standard error. -/
  err : String := ""
deriving DecidableEq, Repr

/-- How the program ends when its arguments are wrong.  Only a terminal is told so with
marks. -/
def UsageError.ending (e : UsageError) (terminal : Bool) : Ending :=
  { code := 2, err := if terminal then e.text else Control.remove e.text }

/-- What a command line asks for. -/
inductive Invocation where
  /-- Nothing that goes on. -/
  | finish (ending : Ending)
  /-- To serve a machine. -/
  | serve (options : ServeOptions)
  /-- To be the console. -/
  | client (options : ClientOptions)
deriving DecidableEq, Repr

/-- Lines that are asked for. -/
def Invocation.show (lines : List String) : Invocation :=
  .finish { code := 0, out := lineText lines }

/-- Without a command, what could be asked for is told as an error. -/
def Invocation.nothing : Invocation := .finish { code := 2, err := lineText programHelp }

/-- The help that is asked for by the names of commands.  No command has commands of its
own. -/
def helpInvocation : List String → Except UsageError Invocation
  | [] => .ok (.show programHelp)
  | name :: rest =>
    match helpOn? name, rest with
    | none, _ => .error (.unknownCommand name)
    | some lines, [] => .ok (.show lines)
    | some _, next :: _ => .error (.unknownCommand next)

/-- An option in place of a command asks for something to be shown. -/
def showFor (option : String) (value : Option String) (lines : List String) :
    Except UsageError Invocation :=
  match value with
  | some value => .error (.unneededValue value option)
  | none => .ok (.show lines)

/-- What the arguments ask for.  Behind two dashes nothing is a command. -/
def invocation : List String → Except UsageError Invocation
  | [] => .ok .nothing
  | "serve" :: arguments => (read serveOptions {} arguments).map fun
    | .settings options => .serve options
    | .help => .show serveHelp
  | "client" :: arguments => (read clientOptions {} arguments).map fun
    | .settings options => .client options
    | .help => .show clientHelp
  | "help" :: names => helpInvocation names
  | argument :: rest =>
    let versionLines := [programName ++ " " ++ version]
    match Form.of argument with
    | .name name value =>
      if name = "help" then showFor "--help" value programHelp
      else if name = "version" then showFor "--version" value versionLines
      else .error (.unexpected ("--" ++ name))
    | .letter letter _ =>
      if letter = 'h' then .ok (.show programHelp)
      else if letter = 'V' then .ok (.show versionLines)
      else .error (.unexpected (String.ofList ['-', letter]))
    | .separator =>
      match rest with
      | [] => .ok .nothing
      | next :: _ =>
        .error (if (helpOn? next).isSome then .unexpected next else .unknownCommand next)
    | .plain => .error (.unknownCommand argument)

/-- Why a machine is not served. -/
inductive LaunchError where
  /-- The directory of the tapes cannot be read. -/
  | tapeDirectory (path : String)
  /-- The file that memory starts from cannot be read. -/
  | image (path : String)
  /-- The configuration cannot work. -/
  | config (fault : Fault)
  /-- Nobody can be listened for at an address. -/
  | listener (address reason : String)
deriving DecidableEq, Repr

/-- The wording of why a machine is not served. -/
def LaunchError.message : LaunchError → String
  | .tapeDirectory path => "Failed to read tape dir " ++ path
  | .image path => "Failed to read image " ++ path
  | .config fault => fault.message
  | .listener address reason => "Failed to bind " ++ address ++ ": " ++ reason

/-- How the program ends when it cannot serve a machine. -/
def LaunchError.ending (e : LaunchError) : Ending :=
  { code := 1, err := lineText ["Error: " ++ e.message] }

/-- All that is needed to serve a machine. -/
structure Launch where
  /-- The least size of memory. -/
  memorySize : Nat
  /-- What memory starts with. -/
  image : List UInt8
  /-- The configuration. -/
  config : Config
  /-- The tapes, by name. -/
  tapes : List String

/-- The machine to serve. -/
def Launch.machine (launch : Launch) : Machine := .create launch.memorySize launch.image

/-- Something that is read if there is a path for it. -/
def readPath {α : Type} (usual : α) (read? : String → Option α) (error : String → LaunchError) :
    Option String → Except LaunchError α
  | none => .ok usual
  | some path =>
    match read? path with
    | some value => .ok value
    | none => .error (error path)

/-- Gather what is needed to serve a machine: first the tapes, then the image; the
configuration is looked at last. -/
def ServeOptions.launch (o : ServeOptions) (files : Files) : Except LaunchError Launch := do
  let names ← readPath [] files.directory? .tapeDirectory o.tapeDirectory
  let image ← readPath [] files.file? .image o.image
  let usual : Config := {}
  let config ← (Config.validate { usual with
    frameCycles := o.frameCycles.getD usual.frameCycles
    symbolsAddress := o.symbolsAddress.getD usual.symbolsAddress }).mapError .config
  return { memorySize := o.memorySize.toNat, image, config, tapes := names.mergeSort (· ≤ ·) }

end CommandLine
end RemoteDebugger
