/-
# Symbols in memory

A program leaves its symbols in memory, one behind another: an address, most significant
byte first, and a name that a NUL ends.  An address of zero ends them.  They are also at
an end where memory is, if that is at an address; a name must be there whole.  Symbols
whose names are not ASCII are passed over and do not count.

What is read next stands at a 32-bit address, and behind the greatest address comes zero.
-/
import RemoteDebugger.Machine.Memory
import RemoteDebugger.Symbol.Table
import RemoteDebugger.Text.Utf8

namespace RemoteDebugger
namespace SymbolTable

/-- How many symbols are read, and how long their names may be. -/
structure Limits where
  /-- The most symbols that are read. -/
  symbols : Nat
  /-- The most bytes of a name. -/
  nameLength : Nat
deriving DecidableEq, Repr

/-- A symbol as a program leaves it: an address and the bytes of a name. -/
structure Entry where
  /-- The address. -/
  address : UInt32
  /-- The bytes of the name. -/
  name : List UInt8
deriving DecidableEq, Repr

namespace Entry

/-- Whether the name is ASCII. -/
def isAscii (e : Entry) : Bool := Text.isAscii e.name

/-- The symbol that an entry with an ASCII name stands for. -/
def symbol (e : Entry) : UInt32 × String := (e.address, Text.ofCodes e.name)

end Entry

/-- The address of a symbol that is at a position. -/
def addressAt? (memory : Memory) (position : Nat) : Option UInt32 :=
  if h : position + 4 ≤ memory.bytes.size then
    some (Word.ofBytes memory.bytes[position] memory.bytes[position + 1]
      memory.bytes[position + 2] memory.bytes[position + 3])
  else none

/-- The bytes of a name, and where reading goes on behind its NUL.  The name goes on at an
address and may have `room` more bytes; those before are `read`, the last one first. -/
def readName (memory : Memory) (limit room : Nat) (address : UInt32) (read : List UInt8) :
    Except Fault (List UInt8 × UInt32) :=
  match memory.byte? address.toNat with
  | none => .error (.outOfRange address 1)
  | some b =>
    if b = 0 then .ok (read.reverse, address + 1)
    else match room with
      | 0 => .error (.longName (address + 1) limit)
      | room + 1 => readName memory limit room (address + 1) (b :: read)

/-- The entry at an address, if the symbols do not end there, and where reading goes on. -/
def readEntry (memory : Memory) (limit : Nat) (start : UInt32) :
    Except Fault (Option (Entry × UInt32)) :=
  match addressAt? memory start.toNat with
  | none => .ok none
  | some address =>
    if address = 0 then .ok none
    else match readName memory limit limit (start + 4) [] with
      | .error fault => .error fault
      | .ok (name, next) => .ok (some (⟨address, name⟩, next))

/-- The first entry with an ASCII name from an address on, if there is one before the symbols
end, and where reading goes on.  At most so many entries are looked at. -/
def findSymbol (memory : Memory) (limit : Nat) :
    (tries : Nat) → (start : UInt32) → Except Fault (Option (Entry × UInt32))
  | 0, _ => .ok none
  | tries + 1, start =>
    match readEntry memory limit start with
    | .error fault => .error fault
    | .ok none => .ok none
    | .ok (some (e, next)) =>
      if e.isAscii then .ok (some (e, next)) else findSymbol memory limit tries next

/-- The symbols from an address on, at most `room` of them.

For each of them as many entries are looked at as there are addresses.  If none of them has an
ASCII name, one was looked at twice and there is no end: a reader who does not count goes
round for ever, and to this one there is no symbol. -/
def scanFrom (memory : Memory) (limit : Nat) :
    (room : Nat) → (start : UInt32) → Except Fault (List (UInt32 × String))
  | 0, _ => .ok []
  | room + 1, start =>
    match findSymbol memory limit UInt32.size start with
    | .error fault => .error fault
    | .ok none => .ok []
    | .ok (some (e, next)) => (scanFrom memory limit room next).map (e.symbol :: ·)

/-- The symbols in memory from an address on. -/
@[irreducible]
def scan (memory : Memory) (address : UInt32) (limits : Limits) : Except Fault SymbolTable :=
  (scanFrom memory limits.nameLength limits.symbols address).map Directory.ofPairs

end SymbolTable
end RemoteDebugger
