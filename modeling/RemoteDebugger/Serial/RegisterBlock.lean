/-
# Registers on the serial protocol

GDB reads the registers as one block: the sixteen words, least significant byte first,
eight floating-point registers of twelve bytes and their status word, which are always
zero here, and the mode.  The same registers have numbers of their own in the order of the
block.  A block that is written may be short; only whole words of it count.
-/
import RemoteDebugger.Word
import RemoteDebugger.Processor

namespace RemoteDebugger
namespace RegisterBlock

/-- The number of floating-point registers. -/
def floatCount : Nat := 8

/-- The length of a floating-point register. -/
def floatLength : Nat := 12

/-- The number of the floating-point status register. -/
def floatStatusIndex : Nat := registerCount + floatCount

/-- The number of the mode register. -/
def modeIndex : Nat := floatStatusIndex + 1

/-- The registers as a block. -/
def encode (registers : Registers) (mode : UInt32) : List UInt8 :=
  registers.toList.flatMap Word.littleEndian
    ++ List.replicate (floatCount * floatLength) 0
    ++ List.replicate 4 0
    ++ Word.littleEndian mode

/-- The word that the first four bytes stand for, least significant first; missing bytes
are zero. -/
def readWord (bytes : List UInt8) : UInt32 :=
  Word.ofBytes (bytes.getD 3 0) (bytes.getD 2 0) (bytes.getD 1 0) (bytes.getD 0 0)

/-- The registers that a block holds whole. -/
def decode (data : List UInt8) : Vector (Option UInt32) registerCount :=
  Vector.ofFn fun i =>
    if 4 * i.val + 4 ≤ data.length then some (readWord (data.drop (4 * i.val))) else none

/-- A word that is written is read back. -/
@[simp] theorem readWord_littleEndian (w : UInt32) : readWord (Word.littleEndian w) = w := by
  simp [readWord, Word.littleEndian]

end RegisterBlock
end RemoteDebugger
