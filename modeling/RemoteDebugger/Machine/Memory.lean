/-
# Memory

The machine's memory is one array of bytes from address zero on.  An access names its
first address and its length and succeeds exactly if all of it lies in memory; one that
fails reads or changes nothing.  Words lie in memory least significant byte first.
-/
import RemoteDebugger.Fault
import RemoteDebugger.Word

namespace RemoteDebugger

/-- The contents of memory. -/
structure Memory where
  /-- The bytes from address zero on. -/
  bytes : ByteArray

namespace Memory

instance : DecidableEq Memory := fun a b =>
  match ByteArray.decEq a.bytes b.bytes with
  | isTrue h => isTrue (by cases a; cases h; rfl)
  | isFalse h => isFalse fun e => h (congrArg bytes e)

/-- So many zeros. -/
def zeros (n : Nat) : ByteArray :=
  n.fold (fun _ _ bytes => bytes.push 0) (ByteArray.emptyWithCapacity n)

/-- Memory of at least `size` bytes that starts with an image and is zero behind it. -/
def ofImage (size : Nat) (image : List UInt8) : Memory :=
  { bytes := image.toByteArray ++ zeros (size - image.length) }

/-- The number of bytes. -/
def size (memory : Memory) : Nat := memory.bytes.size

/-- The byte at an address, if the address lies in memory. -/
def byte? (memory : Memory) (address : Nat) : Option UInt8 :=
  if h : address < memory.bytes.size then some memory.bytes[address] else none

/-- Store bytes from a position on; what would lie beyond the end is dropped. -/
def store (bytes : ByteArray) (position : Nat) : List UInt8 → ByteArray
  | [] => bytes
  | b :: rest => store (bytes.set! position b) (position + 1) rest

/-- Take so many bytes out. -/
def extract (memory : Memory) (address : UInt32) (length : Nat) : Except Fault ByteArray :=
  if address.toNat + length ≤ memory.size then
    .ok (memory.bytes.extract address.toNat (address.toNat + length))
  else .error (.outOfRange address length)

/-- Read so many bytes. -/
def read (memory : Memory) (address : UInt32) (length : Nat) : Except Fault (List UInt8) :=
  (memory.extract address length).map (·.data.toList)

/-- Write bytes. -/
def write (memory : Memory) (address : UInt32) (data : List UInt8) : Except Fault Memory :=
  if address.toNat + data.length ≤ memory.size then
    .ok { bytes := store memory.bytes address.toNat data }
  else .error (.outOfRange address data.length)

/-- The word at an address, if it lies wholly in memory. -/
def word? (memory : Memory) (address : UInt32) : Option UInt32 :=
  if h : address.toNat + 4 ≤ memory.bytes.size then
    some (Word.ofBytes memory.bytes[address.toNat + 3] memory.bytes[address.toNat + 2]
      memory.bytes[address.toNat + 1] memory.bytes[address.toNat])
  else none

/-- Read a word. -/
def readWord (memory : Memory) (address : UInt32) : Except Fault UInt32 :=
  match memory.word? address with
  | some word => .ok word
  | none => .error (.outOfRange address 4)

/-- Write a word. -/
def writeWord (memory : Memory) (address word : UInt32) : Except Fault Memory :=
  memory.write address (Word.littleEndian word)

/-- Write a word whose place is known to lie in memory. -/
def setWord (memory : Memory) (address word : UInt32) : Memory :=
  { bytes := store memory.bytes address.toNat (Word.littleEndian word) }

theorem data_setAt (bytes : ByteArray) (position : Nat) (b : UInt8) :
    (bytes.set! position b).data = bytes.data.setIfInBounds position b := by
  cases bytes
  rfl

@[simp] theorem size_store (bytes : ByteArray) (position : Nat) (data : List UInt8) :
    (store bytes position data).size = bytes.size := by
  induction data generalizing bytes position with
  | nil => rfl
  | cons b rest ih => simp [store, ih]

/-- The byte at a place after a store is the stored one inside of the stored range and the
old one outside. -/
theorem getElem?_store (bytes : ByteArray) (position : Nat) (data : List UInt8) (i : Nat) :
    (store bytes position data).data[i]? =
      if i < bytes.size ∧ position ≤ i ∧ i < position + data.length then data[i - position]?
      else bytes.data[i]? := by
  induction data generalizing bytes position with
  | nil =>
    rw [if_neg (by simp only [List.length_nil]; omega)]
    rfl
  | cons b rest ih =>
    simp only [store, ih, data_setAt, ByteArray.size_set!, Array.getElem?_setIfInBounds,
      List.length_cons]
    have hsize : bytes.size = bytes.data.size := rfl
    by_cases hlt : i < bytes.size ∧ position + 1 ≤ i ∧ i < position + 1 + rest.length
    · have hi : i - position = (i - (position + 1)) + 1 := by omega
      rw [if_pos hlt, if_pos (by omega), hi, List.getElem?_cons_succ]
    · rw [if_neg hlt]
      by_cases he : position = i
      · subst he
        by_cases hs : position < bytes.size
        · rw [if_pos rfl, if_pos (hsize ▸ hs), if_pos (by omega), Nat.sub_self,
            List.getElem?_cons_zero]
        · rw [if_pos rfl, if_neg (hsize ▸ hs), if_neg (by omega),
            Array.getElem?_eq_none (by omega)]
      · rw [if_neg he, if_neg (by omega)]

@[simp] theorem size_setWord (memory : Memory) (address word : UInt32) :
    (memory.setWord address word).size = memory.size := by
  simp [setWord, size]

end Memory
end RemoteDebugger
