/-
# Memory, byte by byte

Two memories are equal when they hold the same bytes, so what an access does to memory is
said by what it does to a byte at a given address.  The words of memory that matter to a
debugger are *aligned*: they lie at multiples of four, and a byte belongs to one of them
only, the one at `Word.base`.
-/
import Mathlib.Tactic.Common
import RemoteDebugger.Machine.Memory

namespace RemoteDebugger

namespace Word

lemma aligned_iff {address : UInt32} : aligned address = true ↔ address.toNat % 4 = 0 := by
  rw [aligned, beq_iff_eq, ← UInt32.toNat_inj, UInt32.toNat_mod]
  rfl

/-- Four bytes of a word follow from the bytes one by one. -/
lemma ofBytes_eq {w : UInt32} {b₃ b₂ b₁ b₀ : UInt8} (h₃ : b₃ = byteAt w 3)
    (h₂ : b₂ = byteAt w 2) (h₁ : b₁ = byteAt w 1) (h₀ : b₀ = byteAt w 0) :
    ofBytes b₃ b₂ b₁ b₀ = w := by
  rw [h₃, h₂, h₁, h₀, ofBytes_byteAt]

lemma byteAt_ofBytes (b : Nat → UInt8) {i : Nat} (hi : i < 4) :
    byteAt (ofBytes (b 3) (b 2) (b 1) (b 0)) i = b i := by
  have h := littleEndian_ofBytes (b 3) (b 2) (b 1) (b 0)
  simp only [littleEndian, List.cons.injEq, and_true] at h
  obtain ⟨h₀, h₁, h₂, h₃⟩ := h
  obtain rfl | rfl | rfl | rfl : i = 0 ∨ i = 1 ∨ i = 2 ∨ i = 3 := by omega
  · exact h₀
  · exact h₁
  · exact h₂
  · exact h₃

lemma getElem?_littleEndian (w : UInt32) {i : Nat} (hi : i < 4) :
    (littleEndian w)[i]? = some (byteAt w i) := by
  obtain rfl | rfl | rfl | rfl : i = 0 ∨ i = 1 ∨ i = 2 ∨ i = 3 := by omega
  · rfl
  · rfl
  · rfl
  · rfl

/-- An aligned address is the base of the addresses in its word. -/
lemma base_eq {address i : Nat} (h : address % 4 = 0) (h₁ : address ≤ i) (h₂ : i < address + 4) :
    base i = address := by
  simp only [base]
  omega

end Word

namespace Memory

lemma byte?_eq_getElem? (memory : Memory) (i : Nat) : memory.byte? i = memory.bytes.data[i]? := by
  simp only [byte?]
  split
  · next h => exact (Array.getElem?_eq_getElem h).symm
  · next h => exact (Array.getElem?_eq_none (Nat.le_of_not_lt h)).symm

lemma byte?_eq_none_iff {memory : Memory} {i : Nat} :
    memory.byte? i = none ↔ memory.size ≤ i := by
  rw [byte?_eq_getElem?, Array.getElem?_eq_none_iff]
  rfl

lemma lt_size_of_byte? {memory : Memory} {i : Nat} {b : UInt8} (h : memory.byte? i = some b) :
    i < memory.size := by
  by_contra hi
  rw [byte?_eq_none_iff.2 (Nat.le_of_not_lt hi)] at h
  exact absurd h (by simp)

/-- Memories with the same bytes are equal. -/
lemma ext_byte? {m m' : Memory} (h : ∀ i, m.byte? i = m'.byte? i) : m = m' := by
  cases m with | mk bytes => cases m' with | mk bytes' =>
  congr 1
  apply ByteArray.ext
  apply Array.ext_getElem?
  intro i
  simpa only [byte?_eq_getElem?] using h i

/-! ### Stores -/

lemma byte?_store (bytes : ByteArray) (position : Nat) (data : List UInt8) (i : Nat) :
    (Memory.mk (store bytes position data)).byte? i =
      if i < bytes.size ∧ position ≤ i ∧ i < position + data.length then data[i - position]?
      else (Memory.mk bytes).byte? i := by
  rw [byte?_eq_getElem?, byte?_eq_getElem?, getElem?_store]

lemma size_of_write {m m' : Memory} {address : UInt32} {data : List UInt8}
    (h : m.write address data = .ok m') : m'.size = m.size := by
  simp only [write] at h
  split at h
  · cases h
    exact size_store ..
  · cases h

lemma byte?_of_write {m m' : Memory} {address : UInt32} {data : List UInt8}
    (h : m.write address data = .ok m') (i : Nat) :
    m'.byte? i =
      if address.toNat ≤ i ∧ i < address.toNat + data.length then data[i - address.toNat]?
      else m.byte? i := by
  simp only [write] at h
  split at h
  · next hsize =>
    cases h
    have hbytes : m.bytes.size = m.size := rfl
    rw [byte?_store]
    by_cases hi : address.toNat ≤ i ∧ i < address.toNat + data.length
    · rw [if_pos hi, if_pos ⟨by omega, hi⟩]
    · rw [if_neg hi, if_neg (fun h => hi h.2)]
  · cases h

lemma byte?_setWord (memory : Memory) (address word : UInt32) (i : Nat) :
    (memory.setWord address word).byte? i =
      if i < memory.size ∧ address.toNat ≤ i ∧ i < address.toNat + 4 then
        some (Word.byteAt word (i - address.toNat))
      else memory.byte? i := by
  have hsize : memory.bytes.size = memory.size := rfl
  rw [setWord, byte?_store, Word.length_littleEndian, hsize]
  by_cases h : i < memory.size ∧ address.toNat ≤ i ∧ i < address.toNat + 4
  · rw [if_pos h, if_pos h, Word.getElem?_littleEndian word (by omega)]
  · rw [if_neg h, if_neg h]

/-- Outside of its word a byte is left alone. -/
lemma byte?_setWord_of_base_ne {memory : Memory} {address word : UInt32} {i : Nat}
    (haligned : address.toNat % 4 = 0) (h : Word.base i ≠ address.toNat) :
    (memory.setWord address word).byte? i = memory.byte? i := by
  rw [byte?_setWord, if_neg]
  rintro ⟨-, h₁, h₂⟩
  exact h (Word.base_eq haligned h₁ h₂)

/-- Within its word a byte is the word's. -/
lemma byte?_setWord_of_base_eq {memory : Memory} {address word : UInt32} {i : Nat}
    (hi : i < memory.size) (h : Word.base i = address.toNat) :
    (memory.setWord address word).byte? i = some (Word.byteAt word (i % 4)) := by
  simp only [Word.base] at h
  rw [byte?_setWord, if_pos (by omega)]
  congr 2
  omega

/-! ### Words -/

lemma word?_eq_some_iff {memory : Memory} {address word : UInt32} :
    memory.word? address = some word ↔
      ∀ j < 4, memory.byte? (address.toNat + j) = some (Word.byteAt word j) := by
  simp only [word?]
  constructor
  · intro h
    split at h
    · next hsize =>
      cases h
      intro j hj
      have hword := Word.littleEndian_ofBytes memory.bytes[address.toNat + 3]
        memory.bytes[address.toNat + 2] memory.bytes[address.toNat + 1] memory.bytes[address.toNat]
      simp only [Word.littleEndian, List.cons.injEq, and_true] at hword
      obtain ⟨h₀, h₁, h₂, h₃⟩ := hword
      rw [byte?, dif_pos (by omega)]
      obtain rfl | rfl | rfl | rfl : j = 0 ∨ j = 1 ∨ j = 2 ∨ j = 3 := by omega
      · exact congrArg some h₀.symm
      · exact congrArg some h₁.symm
      · exact congrArg some h₂.symm
      · exact congrArg some h₃.symm
    · cases h
  · intro h
    have hsize : address.toNat + 4 ≤ memory.bytes.size := by
      have := lt_size_of_byte? (h 3 (by omega))
      exact this
    have hb (j : Nat) (hj : j < 4) (hlt : address.toNat + j < memory.bytes.size) :
        memory.bytes[address.toNat + j] = Word.byteAt word j := by
      have := h j hj
      rw [byte?, dif_pos hlt] at this
      exact Option.some.inj this
    rw [dif_pos hsize]
    exact congrArg some (Word.ofBytes_eq (hb 3 (by omega) _) (hb 2 (by omega) _)
      (hb 1 (by omega) _) (hb 0 (by omega) _))

lemma word?_eq_none_iff {memory : Memory} {address : UInt32} :
    memory.word? address = none ↔ memory.size < address.toNat + 4 := by
  simp only [word?, size]
  split
  · next h => exact ⟨fun h' => absurd h' (by simp), fun h' => absurd h (by omega)⟩
  · next h => exact ⟨fun _ => by omega, fun _ => rfl⟩

/-- Memories of one size that agree on the bytes of a word agree on the word. -/
lemma word?_congr {m m' : Memory} {address : UInt32}
    (h : ∀ j < 4, m.byte? (address.toNat + j) = m'.byte? (address.toNat + j)) :
    m.word? address = m'.word? address := by
  apply Option.ext
  intro word
  rw [word?_eq_some_iff, word?_eq_some_iff]
  exact forall₂_congr fun j hj => by rw [h j hj]

lemma word?_setWord_self {memory : Memory} {address word : UInt32}
    (h : address.toNat + 4 ≤ memory.size) :
    (memory.setWord address word).word? address = some word := by
  rw [word?_eq_some_iff]
  intro j hj
  rw [byte?_setWord, if_pos (by omega), Nat.add_sub_cancel_left]

lemma readWord_eq_ok_iff {memory : Memory} {address word : UInt32} :
    memory.readWord address = .ok word ↔ memory.word? address = some word := by
  simp only [readWord]
  split
  · next h => simp [h]
  · next h => simp [h]

end Memory
end RemoteDebugger
