/-
# Options on a command line

A command takes options, each with a value, in any order: `--name value`, `--name=value`,
and for options with a letter also `-n value`, `-nvalue` and `-n=value`.  It takes nothing
else, apart from a request for help.

An option whose value comes with it is put into effect at once, one whose value is the next
argument when the next option begins, or at the end.  So of two faults the first counts,
except that an argument that cannot be there at all is named before an option in front of
it whose value was an argument of its own is looked at.

What is wrong is told with the arguments marked in it.
-/
import RemoteDebugger.Console.Address
import RemoteDebugger.Text.Control

namespace RemoteDebugger
namespace CommandLine

/-- An option that changes settings. -/
structure OptionSpec (σ : Type) where
  /-- The name. -/
  name : String
  /-- The letter, if it has one. -/
  letter : Option Char := none
  /-- What stands for the value where the option is shown. -/
  placeholder : String
  /-- Whether the value may be empty. -/
  allowsEmpty : Bool := true
  /-- Put a value into the settings, or say what is wrong with it. -/
  set : String → σ → Except String σ
  /-- What the option is for. -/
  help : String

/-- What is wrong with arguments. -/
inductive UsageError where
  /-- An argument cannot be there. -/
  | unexpected (argument : String)
  /-- There is no such command. -/
  | unknownCommand (name : String)
  /-- An option has no value. -/
  | missingValue (option : String)
  /-- An option that takes no value has one. -/
  | unneededValue (value option : String)
  /-- An option has a value that it cannot have. -/
  | invalidValue (value option reason : String)
  /-- An option is given twice. -/
  | repeated (option : String)
deriving DecidableEq, Repr

/-- An argument in quotes, marked as what is wrong. -/
def quoted (argument : String) : String := "'" ++ Control.Mark.culprit.around argument ++ "'"

/-- An option in quotes, marked as what is to be typed. -/
def quotedOption (option : String) : String := "'" ++ Control.Mark.literal.around option ++ "'"

/-- The wording of what is wrong with arguments.  Why a value cannot be had is not marked. -/
def UsageError.message : UsageError → String
  | .unexpected argument => "unexpected argument " ++ quoted argument ++ " found"
  | .unknownCommand name => "unrecognized subcommand " ++ quoted name
  | .missingValue option =>
    "a value is required for " ++ quotedOption option ++ " but none was supplied"
  | .unneededValue value option =>
    "unexpected value " ++ quoted value ++ " for " ++ quotedOption option
      ++ " found; no more were expected"
  | .invalidValue value option reason =>
    "invalid value " ++ quoted value ++ " for " ++ quotedOption option ++ ": " ++ reason
  | .repeated option =>
    "the argument " ++ quoted option ++ " cannot be used multiple times"

/-- All that is said when arguments are wrong. -/
def UsageError.text (e : UsageError) : String :=
  Control.Mark.alarm.around "error:" ++ " " ++ e.message ++ "\n\nFor more information, try "
    ++ quotedOption "--help" ++ ".\n"

/-- What comes of the arguments of a command. -/
inductive Parsed (σ : Type) where
  /-- The settings. -/
  | settings (settings : σ)
  /-- Help is asked for. -/
  | help

variable {σ : Type}

/-- How an option is shown. -/
def OptionSpec.shown (o : OptionSpec σ) : String :=
  "--" ++ o.name ++ " <" ++ o.placeholder ++ ">"

/-- The options that have been put into effect, the settings they make, and the option that
has not, with its value if that has come. -/
structure Progress (σ : Type) where
  /-- The settings. -/
  settings : σ
  /-- The names of the options that have been put into effect. -/
  seen : List String := []
  /-- The option that has not. -/
  pending : Option (OptionSpec σ × Option String) := none

namespace Progress

/-- Put an option into effect. -/
def apply (p : Progress σ) (o : OptionSpec σ) : Option String → Except UsageError (Progress σ)
  | none => .error (.missingValue o.shown)
  | some value =>
    if p.seen.contains o.name then .error (.repeated o.shown)
    else if value.isEmpty && !o.allowsEmpty then .error (.missingValue o.shown)
    else match o.set value p.settings with
      | .ok settings => .ok { settings, seen := o.name :: p.seen }
      | .error reason => .error (.invalidValue value o.shown reason)

/-- Put the pending option into effect. -/
def resolve (p : Progress σ) : Except UsageError (Progress σ) :=
  match p.pending with
  | none => .ok p
  | some (o, value) => p.apply o value

/-- Begin an option, with its value if that comes with it. -/
def start (p : Progress σ) (o : OptionSpec σ) (value : Option String) :
    Except UsageError (Progress σ) := do
  let p ← p.resolve
  match value with
  | some _ => p.apply o value
  | none => return { p with pending := some (o, none) }

/-- Whether the pending option still has no value. -/
def wantsValue (p : Progress σ) : Bool := p.pending.any (·.2.isNone)

/-- Give the pending option its value. -/
def give (p : Progress σ) (value : String) : Progress σ :=
  { p with pending := p.pending.map fun (o, _) => (o, some value) }

end Progress

/-- An argument, by its form. -/
inductive Form where
  /-- Two dashes: all that follow are no options. -/
  | separator
  /-- A name, and a value if one comes with it. -/
  | name (name : String) (value : Option String)
  /-- A letter and what follows it. -/
  | letter (letter : Char) (rest : List Char)
  /-- Anything else. -/
  | plain

/-- The form of an argument. -/
def Form.of (argument : String) : Form :=
  match argument.toList with
  | ['-', '-'] => .separator
  | '-' :: '-' :: rest =>
    let name := String.ofList (rest.takeWhile (· != '='))
    match rest.dropWhile (· != '=') with
    | [] => .name name none
    | _ :: value => .name name (some (String.ofList value))
  | '-' :: c :: rest => .letter c rest
  | _ => .plain

/-- The value that comes with a letter. -/
def valueBehind : List Char → Option String
  | [] => none
  | '=' :: value => some (String.ofList value)
  | value => some (String.ofList value)

/-- Read arguments. -/
def readFrom (options : List (OptionSpec σ)) (p : Progress σ) :
    List String → Except UsageError (Parsed σ)
  | [] => p.resolve.map fun p => .settings p.settings
  | argument :: rest =>
    match Form.of argument with
    | .separator =>
      match rest with
      | [] => p.resolve.map fun p => .settings p.settings
      | next :: _ => .error (.unexpected next)
    | .name name value =>
      match options.find? (·.name == name) with
      | some o => do readFrom options (← p.start o value) rest
      | none =>
        if name = "help" then
          match value with
          | some value => .error (.unneededValue value "--help")
          | none => p.resolve.map fun _ => .help
        else .error (.unexpected ("--" ++ name))
    | .letter letter behind =>
      match options.find? (·.letter == some letter) with
      | some o => do readFrom options (← p.start o (valueBehind behind)) rest
      | none =>
        if letter = 'h' then p.resolve.map fun _ => .help
        else .error (.unexpected (String.ofList ['-', letter]))
    | .plain =>
      if p.wantsValue then readFrom options (p.give argument) rest
      else .error (.unexpected argument)

/-- Read the arguments of a command. -/
def read (options : List (OptionSpec σ)) (settings : σ) (arguments : List String) :
    Except UsageError (Parsed σ) :=
  readFrom options { settings } arguments

/-! ### Values -/

/-- A whole number with a sign, of at most 64 bits. -/
def readInteger (text : String) : Except String Int :=
  let read (limit : Nat) (tooLarge : String) (codes : List UInt8) : Except String Nat :=
    (Numeral.read 10 limit codes).mapError fun
      | .tooLarge => tooLarge
      | cause => cause.message
  match Text.utf8 text with
  | 0x2d :: d :: digits =>
    if (Numeral.digit? 10 d).isNone then .error NumeralError.badDigit.message
    else (read 0x8000000000000001 "number too small to fit in target type" (d :: digits)).map
      fun n => -(n : Int)
  | codes => (read 0x8000000000000000 NumeralError.tooLarge.message codes).map fun n => (n : Int)

/-- A port. -/
def readPort (text : String) : Except String UInt16 := do
  let n ← readInteger text
  if 0 ≤ n ∧ n ≤ 65535 then return UInt16.ofNat n.toNat
  else throw s!"{n} is not in 0..=65535"

/-- An address or a number. -/
def readAddress (text : String) : Except String UInt32 :=
  (Console.parseAddress text).mapError (·.message)

/-! ### Help -/

/-- The first column of an option in its command's help. -/
def OptionSpec.usage (o : OptionSpec σ) : String :=
  (match o.letter with
    | some letter => "-" ++ String.ofList [letter] ++ ", "
    | none => "    ") ++ o.shown

/-- A table of two columns. -/
def columns (rows : List (String × String)) : List String :=
  let width := rows.foldl (fun width row => max width row.1.length) 0
  rows.map fun (left, right) =>
    "  " ++ left ++ String.ofList (List.replicate (width - left.length + 2) ' ') ++ right

/-- The help for a command. -/
def helpFor (program name about : String) (options : List (OptionSpec σ)) : List String :=
  [about, "", "Usage: " ++ program ++ " " ++ name ++ " [OPTIONS]", "", "Options:"]
    ++ columns (options.map (fun o => (o.usage, o.help)) ++ [("-h, --help", "Print help")])

end CommandLine
end RemoteDebugger
