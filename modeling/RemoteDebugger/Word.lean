/-
# Words of memory and their bytes

The machine and both of its protocols deal in 32-bit words.  A word is written either
with its most significant byte first (the debugger's own protocol) or with its least
significant byte first (the machine's memory and its registers on the serial protocol).
Both orders are read off one description, the value of a word in its four bytes, so that
reading back what was written is arithmetic on natural numbers.
-/

namespace RemoteDebugger
namespace Word

/-- The word with the given bytes, the most significant one first. -/
def ofBytes (b₃ b₂ b₁ b₀ : UInt8) : UInt32 :=
  UInt32.ofNat (((b₃.toNat * 256 + b₂.toNat) * 256 + b₁.toNat) * 256 + b₀.toNat)

/-- The byte of weight `256 ^ i` of a word. -/
def byteAt (w : UInt32) (i : Nat) : UInt8 :=
  UInt8.ofNat (w.toNat / Nat.pow 256 i)

/-- The bytes of a word, most significant first. -/
def bigEndian (w : UInt32) : List UInt8 :=
  [byteAt w 3, byteAt w 2, byteAt w 1, byteAt w 0]

/-- The bytes of a word, least significant first. -/
def littleEndian (w : UInt32) : List UInt8 :=
  [byteAt w 0, byteAt w 1, byteAt w 2, byteAt w 3]

/-- The address of the word that an address lies in. -/
def base (address : Nat) : Nat := address - address % 4

/-- Whether an address is the address of a word. -/
def aligned (address : UInt32) : Bool := address % 4 == 0

@[simp] theorem length_bigEndian (w : UInt32) : (bigEndian w).length = 4 := rfl

@[simp] theorem length_littleEndian (w : UInt32) : (littleEndian w).length = 4 := rfl

theorem toNat_ofBytes (b₃ b₂ b₁ b₀ : UInt8) :
    (ofBytes b₃ b₂ b₁ b₀).toNat =
      ((b₃.toNat * 256 + b₂.toNat) * 256 + b₁.toNat) * 256 + b₀.toNat := by
  have h₃ := b₃.toNat_lt
  have h₂ := b₂.toNat_lt
  have h₁ := b₁.toNat_lt
  have h₀ := b₀.toNat_lt
  simp only [ofBytes, UInt32.toNat_ofNat']
  omega

theorem toNat_byteAt (w : UInt32) (i : Nat) :
    (byteAt w i).toNat = w.toNat / Nat.pow 256 i % 256 := by
  simp [byteAt]

/-- Taking a word apart and putting it together again changes nothing. -/
@[simp] theorem ofBytes_byteAt (w : UInt32) :
    ofBytes (byteAt w 3) (byteAt w 2) (byteAt w 1) (byteAt w 0) = w := by
  have h := w.toNat_lt
  apply UInt32.toNat_inj.1
  simp only [toNat_ofBytes, toNat_byteAt, Nat.pow_eq, Nat.reducePow]
  omega

/-- The four bytes of a word are those that it was made of, the least significant first. -/
theorem littleEndian_ofBytes (b₃ b₂ b₁ b₀ : UInt8) :
    littleEndian (ofBytes b₃ b₂ b₁ b₀) = [b₀, b₁, b₂, b₃] := by
  have h₃ := b₃.toNat_lt
  have h₂ := b₂.toNat_lt
  have h₁ := b₁.toNat_lt
  have h₀ := b₀.toNat_lt
  simp only [littleEndian, List.cons.injEq, and_true, ← UInt8.toNat_inj, toNat_byteAt,
    toNat_ofBytes, Nat.pow_eq, Nat.reducePow]
  omega

/-- The four bytes of a word are those that it was made of, the most significant first. -/
theorem bigEndian_ofBytes (b₃ b₂ b₁ b₀ : UInt8) :
    bigEndian (ofBytes b₃ b₂ b₁ b₀) = [b₃, b₂, b₁, b₀] := by
  have h := littleEndian_ofBytes b₃ b₂ b₁ b₀
  simp only [littleEndian, List.cons.injEq, and_true] at h
  simp [bigEndian, h]

end Word
end RemoteDebugger
