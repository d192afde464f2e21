/-
# Breakpoints

A breakpoint is a trap word put in place of the word at its address.  The table of
breakpoints remembers the words that were there, so that memory can be shown without the
traps, written without losing them, and the word under a trap be executed.  Every entry of
a table came in through `add`, which lets in only addresses of words that lie in memory;
as memory keeps its size, putting a trap or a word back at an entry cannot fail.
-/
import RemoteDebugger.Directory
import RemoteDebugger.Scheduler

namespace RemoteDebugger

/-- The breakpoints that are set. -/
structure Breakpoints where
  /-- The words that the traps stand for, by address. -/
  saved : Directory UInt32 := {}
deriving DecidableEq, Repr, Inhabited

namespace Breakpoints

/-- Whether there is a breakpoint at an address. -/
def contains (t : Breakpoints) (address : UInt32) : Bool := t.saved.contains address

/-- The word that the trap at an address stands for. -/
def wordUnder? (t : Breakpoints) (address : UInt32) : Option UInt32 := t.saved.get? address

/-- Set a breakpoint; nothing if there is one already. -/
def add (t : Breakpoints) (address : UInt32) (memory : Memory) :
    Except Fault (Option (Breakpoints × Memory)) :=
  if !Word.aligned address then .error (.misaligned address)
  else if t.contains address then .ok none
  else match memory.readWord address with
    | .error fault => .error fault
    | .ok word =>
      .ok (some ({ saved := t.saved.insert address word }, memory.setWord address trapWord))

/-- Take a breakpoint away. -/
def remove (t : Breakpoints) (address : UInt32) (memory : Memory) :
    Except Fault (Breakpoints × Memory) :=
  match t.wordUnder? address with
  | none => .error (.noBreakpoint address)
  | some word => .ok ({ saved := t.saved.erase address }, memory.setWord address word)

/-- Bytes from an address on, with a word at another address in place of what they have
there. -/
def cover (address : Nat) (bytes : ByteArray) (key word : UInt32) : ByteArray :=
  Memory.store bytes (key.toNat - address) ((Word.littleEndian word).drop (address - key.toNat))

/-- Bytes read from an address on, with the words that traps stand for in place of them. -/
def overlay (t : Breakpoints) (address : Nat) (bytes : ByteArray) : ByteArray :=
  t.saved.entries.foldl (fun bytes entry => cover address bytes entry.1 entry.2) bytes

/-- What a word at an address has become by a write from `start` up to `finish`, after which
memory is as given. -/
def rewritten (memory : Memory) (start finish address : Nat) (word : UInt32) : UInt32 :=
  let byte (i : Nat) : UInt8 :=
    if start ≤ address + i ∧ address + i < finish then
      (memory.byte? (address + i)).getD (Word.byteAt word i)
    else Word.byteAt word i
  Word.ofBytes (byte 3) (byte 2) (byte 1) (byte 0)

/-- Put traps at some addresses. -/
def trapAll (addresses : List UInt32) (memory : Memory) : Memory :=
  addresses.foldl (fun memory address => memory.setWord address trapWord) memory

/-- The breakpoints from the word of an address on and below an end. -/
def inRange (t : Breakpoints) (start finish : Nat) : List UInt32 :=
  t.saved.keys.filter fun key => Word.base start ≤ key.toNat && key.toNat < finish

/-- Write memory under the breakpoints: the words that traps stand for change, the traps
stay. -/
def write (t : Breakpoints) (address : UInt32) (data : List UInt8) (memory : Memory) :
    Except Fault (Breakpoints × Memory) :=
  match memory.write address data with
  | .error fault => .error fault
  | .ok memory =>
    let start := address.toNat
    let finish := start + data.length
    .ok ({ saved := t.saved.map fun key word => rewritten memory start finish key.toNat word },
      trapAll (t.inRange start finish) memory)

/-- Put the traps into memory that has lost them, and keep the words they stood for. -/
def reapply (t : Breakpoints) (memory : Memory) : Memory := trapAll t.saved.keys memory

/-- If the program counter stands on a breakpoint, execute the word that the trap stands
for.  The trap is put back however that ends. -/
def stepOver (t : Breakpoints) (s : Scheduler) : Option (Except Fault Status × Scheduler) :=
  match t.wordUnder? s.pc with
  | none => none
  | some word =>
    let (outcome, after) := (s.setMemory (s.memory.setWord s.pc word)).stepAndWait 1
    some (outcome, after.setMemory (after.memory.setWord s.pc trapWord))

@[simp] theorem size_overlay (t : Breakpoints) (address : Nat) (bytes : ByteArray) :
    (t.overlay address bytes).size = bytes.size := by
  unfold overlay
  generalize t.saved.entries = entries
  induction entries generalizing bytes with
  | nil => rfl
  | cons entry rest ih => rw [List.foldl_cons, ih, cover, Memory.size_store]

end Breakpoints
end RemoteDebugger
