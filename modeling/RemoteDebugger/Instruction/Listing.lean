/-
# Listings

A listing shows words of memory as instructions, one line a word: the address, the word,
the instruction's text, the symbol of the address, and for a branch the symbol it leads
to.  A disassembler makes the lines of a range; `Disassembler.ofText` is the one whose
lines have this form, whatever the text of a single instruction.
-/
import RemoteDebugger.Instruction.Branch
import RemoteDebugger.Symbol.Table
import RemoteDebugger.Text.Hex

namespace RemoteDebugger

/-- What makes the lines of a range: from its first address, its words and the symbols. -/
structure Disassembler where
  /-- The lines. -/
  lines : UInt32 → List UInt32 → SymbolTable → List String

namespace Instruction

/-- The suffix of a condition. -/
def conditionSuffix (word : UInt32) : String :=
  ["eq", "ne", "hs", "lo", "mi", "pl", "vs", "vc", "hi", "ls", "ge", "lt", "gt", "le"].getD
    (condition word) ""

/-- The name of a register. -/
def registerName (index : Nat) : String :=
  ["r0", "r1", "r2", "r3", "r4", "r5", "r6", "r7", "r8", "sb", "sl", "fp", "ip", "sp", "lr",
    "pc"].getD index ""

/-- A number in an instruction, decimal if it has one digit. -/
def immediate (n : Nat) : String :=
  if n ≤ 9 then "#" ++ toString n else "#0x" ++ Hex.text n

/-- A word that is not shown as an instruction. -/
def dataText (word : UInt32) : String := ".word 0x" ++ Hex.word8 word

/-- The text of the instruction at an address: branches, supervisor calls, moves of a byte
into a register, and the usual words that do nothing or return. -/
def text (address word : UInt32) : String :=
  if word = 0 then "andeq r0, r0, r0"
  else if word = 0xe1a00000 then "mov r0, r0"
  else if word = 0xe12fff1e then "bx lr"
  else if condition word = 15 then dataText word
  else if word.toNat / 0x10000 = 0xe3a0 ∧ word.toNat / 0x100 % 16 = 0 then
    "mov " ++ registerName (word.toNat / 0x1000 % 16) ++ ", " ++ immediate (word.toNat % 256)
  else if opcode word = 15 then "svc" ++ conditionSuffix word ++ " " ++ immediate (operand word)
  else match branchTarget? address word with
    | some target =>
      (if isCall word then "bl" else "b") ++ conditionSuffix word ++ " "
        ++ immediate target.toNat
    | none => dataText word

/-- The symbol that a branch at an address leads to, as it stands behind the text. -/
def targetNote (address word : UInt32) (symbols : SymbolTable) : String :=
  match branchTarget? address word with
  | none => ""
  | some target =>
    match symbols.lookup target with
    | (none, _) => ""
    | (some name, distance) =>
      if distance = 0 then "  ; " ++ name
      else "  ; " ++ name ++ "+0x" ++ Hex.text distance.toNat

/-- The line of a word whose text is given. -/
def line (address word : UInt32) (text : String) (symbols : SymbolTable) : String :=
  let note := match symbols.nameAt? address with
    | some name => "  <" ++ name ++ ">"
    | none => ""
  Hex.word8 address ++ ": " ++ Hex.word8 word ++ "  " ++ text ++ note
    ++ targetNote address word symbols

/-- The lines of words from an address on. -/
def lines (text : UInt32 → UInt32 → String) (symbols : SymbolTable) :
    UInt32 → List UInt32 → List String
  | _, [] => []
  | address, word :: rest =>
    line address word (text address word) symbols :: lines text symbols (address + 4) rest

end Instruction

/-- The disassembler that shows instructions as the given texts. -/
def Disassembler.ofText (text : UInt32 → UInt32 → String) : Disassembler :=
  { lines := fun address words symbols => Instruction.lines text symbols address words }

/-- The disassembler of the machine's instruction set. -/
def Disassembler.standard : Disassembler := .ofText Instruction.text

end RemoteDebugger
