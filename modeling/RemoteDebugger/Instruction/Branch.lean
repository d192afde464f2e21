/-
# Branches

Of the instruction set the debugger itself understands only branches: whether a word calls
a subroutine, so that it can be stepped over, and where a branch leads, so that a listing
can name the place.
-/

namespace RemoteDebugger
namespace Instruction

/-- The condition of an instruction, its top four bits; the last one marks words of
another kind. -/
def condition (word : UInt32) : Nat := word.toNat / 0x10000000

/-- The four bits below the condition. -/
def opcode (word : UInt32) : Nat := word.toNat / 0x1000000 % 16

/-- The low twenty-four bits. -/
def operand (word : UInt32) : Nat := word.toNat % 0x1000000

/-- Whether a word is a branch that leaves its return address behind. -/
def isCall (word : UInt32) : Bool := condition word != 15 && opcode word == 11

/-- Where a branch at an address leads: its operand is a distance in words, with a sign,
from the second word behind it. -/
def branchTarget? (address word : UInt32) : Option UInt32 :=
  if condition word = 15 ∨ opcode word / 2 ≠ 5 then none
  else
    let distance := if operand word < 0x800000 then operand word else operand word + 0xff000000
    some (address + 8 + UInt32.ofNat (4 * distance))

end Instruction
end RemoteDebugger
