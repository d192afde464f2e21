/-
# Packets of the serial protocol

GDB talks to a target in packets: a dollar sign, the payload, a number sign and two
hexadecimal digits, the sum of the payload's bytes.  A byte of the payload that would end
or start a packet is escaped: a closing brace stands in front of it and its bit of value
0x20 is inverted.  The sum is taken of the bytes as they are sent.
-/
import RemoteDebugger.Text.Hex
import RemoteDebugger.Wire.Error

namespace RemoteDebugger
namespace Packet

/-- The byte that starts a packet, a dollar sign. -/
def opening : UInt8 := 0x24

/-- The byte that ends a payload, a number sign. -/
def closing : UInt8 := 0x23

/-- The byte in front of an escaped byte, a closing brace. -/
def escapeMark : UInt8 := 0x7d

/-- The byte outside of packets that asks the target to stop. -/
def interruptByte : UInt8 := 0x03

/-- The longest unfinished packet that a receiver waits for. -/
def maxLength : Nat := 0x4000

/-- The sum of bytes, as a byte. -/
def checksum (bytes : List UInt8) : UInt8 :=
  bytes.foldl (· + ·) 0

/-- Whether a byte may not appear in a payload as it is. -/
def isReserved (b : UInt8) : Bool :=
  b == closing || b == opening || b == escapeMark

/-- Escape the reserved bytes. -/
def escape (data : List UInt8) : List UInt8 :=
  data.flatMap fun b => if isReserved b then [escapeMark, b ^^^ 0x20] else [b]

/-- Undo the escaping; an escape mark must have a byte behind it. -/
def unescape : List UInt8 → Except WireError (List UInt8)
  | [] => .ok []
  | [b] => if b == escapeMark then .error .danglingEscape else .ok [b]
  | b :: c :: rest =>
    if b == escapeMark then (unescape rest).map ((c ^^^ 0x20) :: ·)
    else (unescape (c :: rest)).map (b :: ·)

/-- A payload as a packet. -/
def encode (payload : List UInt8) : List UInt8 :=
  opening :: escape payload ++ closing :: Hex.byteDigits (checksum (escape payload))

theorem isReserved_invert {b : UInt8} (h : isReserved b) : isReserved (b ^^^ 0x20) = false := by
  simp only [isReserved, Bool.or_eq_true, beq_iff_eq] at h
  rcases h with (h | h) | h <;> subst h <;> decide

/-- Escaped data holds no byte that ends a payload. -/
theorem closing_not_mem_escape (data : List UInt8) : closing ∉ escape data := by
  simp only [escape, List.mem_flatMap, not_exists, not_and]
  intro b _
  by_cases h : isReserved b
  · have h' := isReserved_invert h
    simp only [isReserved, Bool.or_eq_false_iff, beq_eq_false_iff_ne, ne_eq] at h'
    simp only [h, if_true, List.mem_cons, List.not_mem_nil, or_false, not_or]
    exact ⟨by decide, fun e => h'.1.1 e.symm⟩
  · simp only [isReserved, Bool.or_eq_true, beq_iff_eq, not_or] at h
    simp only [isReserved, beq_eq_false_iff_ne.2 h.1.1, beq_eq_false_iff_ne.2 h.1.2,
      beq_eq_false_iff_ne.2 h.2, Bool.or_self, Bool.false_eq_true, if_false, List.mem_cons,
      List.not_mem_nil, or_false]
    exact fun e => h.1.1 e.symm

theorem unescape_cons_of_ne {b : UInt8} (h : (b == escapeMark) = false) (rest : List UInt8) :
    unescape (b :: rest) = (unescape rest).map (b :: ·) := by
  cases rest <;> simp [unescape, h, Except.map]

theorem invert_invert (b : UInt8) : b ^^^ 0x20 ^^^ 0x20 = b := by
  rw [UInt8.xor_assoc, UInt8.xor_self, UInt8.xor_zero]

/-- Unescaping gives back what was escaped. -/
@[simp] theorem unescape_escape (data : List UInt8) : unescape (escape data) = .ok data := by
  induction data with
  | nil => rfl
  | cons b rest ih =>
    have step : escape (b :: rest) =
        (if isReserved b then [escapeMark, b ^^^ 0x20] else [b]) ++ escape rest := rfl
    rw [step]
    by_cases h : isReserved b
    · simp only [h, if_true, List.cons_append, List.nil_append, unescape, beq_self_eq_true, ih,
        Except.map, invert_invert]
    · have hb : (b == escapeMark) = false := by
        simp only [isReserved, Bool.or_eq_true, not_or, Bool.not_eq_true] at h
        exact h.2
      simp [h, unescape_cons_of_ne hb, ih, Except.map]

end Packet
end RemoteDebugger
