/-
# Hexadecimal text

Bytes travel on the serial protocol as two hexadecimal digits each, written in lower
case.  Reading takes the digits of both cases, two at a time; like every number of the
protocols a pair may also be a plus sign and one digit.
-/
import RemoteDebugger.Text.Numeral

namespace RemoteDebugger
namespace Hex

/-- The ASCII code of a hexadecimal digit, in lower case. -/
def digit (n : Nat) : UInt8 :=
  if n < 10 then UInt8.ofNat (48 + n) else UInt8.ofNat (87 + n)

/-- The two digits of a byte. -/
def byteDigits (b : UInt8) : List UInt8 :=
  [digit (b.toNat / 16), digit (b.toNat % 16)]

/-- Bytes as hexadecimal digits. -/
def encode (bytes : List UInt8) : List UInt8 :=
  bytes.flatMap byteDigits

/-- The bytes that hexadecimal digits stand for, two digits each; nothing for an odd
number of digits or for a pair that is no number. -/
def decode? : List UInt8 → Option (List UInt8)
  | [] => some []
  | [_] => none
  | a :: b :: rest =>
    match Numeral.read 16 256 [a, b] with
    | .ok n => (decode? rest).map (UInt8.ofNat n :: ·)
    | .error _ => none

/-- A number in `width` hexadecimal digits, the low ones if it has more. -/
def padded : Nat → Nat → List UInt8
  | 0, _ => []
  | width + 1, n => padded width (n / 16) ++ [digit (n % 16)]

/-- How many hexadecimal digits a word has when written without leading zeros. -/
def digitCount (n : Nat) : Nat :=
  if n < 16 then 1 else 1 + digitCount (n / 16)

/-- A number in hexadecimal without leading zeros. -/
def plain (n : Nat) : List UInt8 := padded (digitCount n) n

/-- The text of a number in eight hexadecimal digits. -/
def word8 (w : UInt32) : String := Text.ofCodes (padded 8 w.toNat)

/-- The text of a number in two hexadecimal digits. -/
def byte2 (b : UInt8) : String := Text.ofCodes (byteDigits b)

/-- The text of a number in hexadecimal without leading zeros. -/
def text (n : Nat) : String := Text.ofCodes (plain n)

theorem digit_lt {n : Nat} (h : n < 16) : digit n < 0x80 := by
  simp only [digit]
  split <;> simp only [UInt8.lt_iff_toNat_lt, UInt8.toNat_ofNat'] <;>
    simp only [UInt8.reduceToNat] <;> omega

theorem isAscii_padded (width n : Nat) : Text.isAscii (padded width n) := by
  induction width generalizing n with
  | zero => rfl
  | succ width ih =>
    have h := ih (n / 16)
    simp only [Text.isAscii] at h ⊢
    simp [padded, h, digit_lt (Nat.mod_lt n (by decide))]

/-- Every digit that a number is written with reads back as its value. -/
theorem digit?_digit {n : Nat} (h : n < 16) : Numeral.digit? 16 (digit n) = some n := by
  have : ∀ n : Fin 16, Numeral.digit? 16 (digit n.val) = some n.val := by decide
  exact this ⟨n, h⟩

theorem digit_ne_plus {n : Nat} (h : n < 16) : digit n ≠ 43 := by
  have : ∀ n : Fin 16, digit n.val ≠ 43 := by decide
  exact this ⟨n, h⟩

theorem read_byteDigits (b : UInt8) : Numeral.read 16 256 (byteDigits b) = .ok b.toNat := by
  have hb := b.toNat_lt
  have hhi : b.toNat / 16 < 16 := by omega
  have hlo : b.toNat % 16 < 16 := by omega
  have hvalue : b.toNat / 16 * 16 + b.toNat % 16 = b.toNat := by omega
  rw [byteDigits, Numeral.read]
  · simp only [Numeral.readDigits, digit?_digit hhi, digit?_digit hlo, Nat.zero_mul,
      Nat.zero_add, hvalue]
    rw [if_pos (by omega), if_pos hb]
  · simp
  · simp
  · intro digits h
    exact absurd (List.cons.inj h).1 (digit_ne_plus hhi)

/-- Bytes written as hexadecimal digits read back as themselves. -/
@[simp] theorem decode?_encode (bytes : List UInt8) : decode? (encode bytes) = some bytes := by
  induction bytes with
  | nil => rfl
  | cons b rest ih =>
    have h := read_byteDigits b
    simp only [byteDigits] at h
    have ih' : decode? (rest.flatMap byteDigits) = some rest := ih
    simp [encode, byteDigits, decode?, h, ih']

end Hex
end RemoteDebugger
