/-
# The debugger's configuration
-/
import RemoteDebugger.Symbol.Scan

namespace RemoteDebugger

/-- How the debugger runs the machine and where it looks for symbols. -/
structure Config where
  /-- How many cycles a running machine is asked for at a time. -/
  frameCycles : UInt32 := 66666
  /-- Where the symbols begin in memory. -/
  symbolsAddress : UInt32 := 0x30000
  /-- How long the debugger waits for the machine or for events, in milliseconds. -/
  pollMilliseconds : Nat := 100
  /-- How many symbols are read, and how long their names may be. -/
  limits : SymbolTable.Limits := { symbols := 4096, nameLength := 256 }
deriving DecidableEq, Repr

namespace Config

/-- Refuse a configuration with which nothing would ever happen. -/
def validate (config : Config) : Except Fault Config :=
  if config.frameCycles = 0 then .error (.invalidConfig .noFrameCycles)
  else if config.pollMilliseconds = 0 then .error (.invalidConfig .noPollInterval)
  else .ok config

end Config
end RemoteDebugger
