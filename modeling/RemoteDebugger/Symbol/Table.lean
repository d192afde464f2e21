/-
# Symbols

A symbol is a name for an address.  The table of symbols has one name for an address, the
first that was given.  An address in general is shown as the nearest name at or before it
and the distance from there.
-/
import RemoteDebugger.Directory

namespace RemoteDebugger

/-- The symbols: names by address. -/
abbrev SymbolTable : Type := Directory String

namespace SymbolTable

/-- The nearest symbol at or before an address and the distance from it; before the first
symbol there is none, and the distance is the address itself. -/
def lookup (symbols : SymbolTable) (address : UInt32) : Option String × UInt32 :=
  match symbols.floor? address with
  | some (start, name) => (some name, address - start)
  | none => (none, address)

/-- The name of exactly this address. -/
def nameAt? (symbols : SymbolTable) (address : UInt32) : Option String :=
  symbols.get? address

/-- The lowest address of a name. -/
def resolve? (symbols : SymbolTable) (name : String) : Option UInt32 :=
  (symbols.entries.find? (·.2 == name)).map (·.1)

end SymbolTable
end RemoteDebugger
