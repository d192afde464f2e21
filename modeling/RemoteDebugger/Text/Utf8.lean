/-
# Text as bytes

Both protocols carry text between numbers, as bytes.  Text is written as UTF-8; what is
read back as text is either ASCII, one character per byte (the debugger's own protocol),
or UTF-8 again (the serial protocol).  On ASCII the two agree.
-/

namespace RemoteDebugger
namespace Text

/-- The UTF-8 bytes of a text. -/
def utf8 (text : String) : List UInt8 :=
  text.toList.flatMap String.utf8EncodeChar

/-- The text that bytes spell in UTF-8, if they do. -/
def ofUtf8? (bytes : List UInt8) : Option String :=
  String.fromUTF8? bytes.toByteArray

/-- Whether all bytes are ASCII. -/
def isAscii (bytes : List UInt8) : Bool :=
  bytes.all (· < 0x80)

/-- The text with one character for each byte. -/
def ofCodes (bytes : List UInt8) : String :=
  String.ofList (bytes.map Char.ofUInt8)

/-- The text that ASCII bytes spell; nothing if a byte is not ASCII. -/
def ofAscii? (bytes : List UInt8) : Option String :=
  if isAscii bytes then some (ofCodes bytes) else none

theorem utf8EncodeChar_ofUInt8 {b : UInt8} (h : b < 0x80) :
    String.utf8EncodeChar (Char.ofUInt8 b) = [b] := by
  have hb : b.toNat < 128 := h
  have hv : (Char.ofUInt8 b).val.toNat = b.toNat := by
    change b.toUInt32.toNat = b.toNat
    exact UInt8.toNat_toUInt32 b
  simp only [String.utf8EncodeChar, hv]
  rw [if_pos (by omega)]
  simp

/-- Text read from ASCII bytes is written as the same bytes. -/
theorem utf8_ofCodes {bytes : List UInt8} (h : isAscii bytes) :
    utf8 (ofCodes bytes) = bytes := by
  induction bytes with
  | nil => rfl
  | cons b rest ih =>
    simp only [isAscii, List.all_cons, Bool.and_eq_true, decide_eq_true_eq] at h
    have ih := ih h.2
    simp only [utf8, ofCodes, String.toList_ofList, List.map_cons, List.flatMap_cons] at ih ⊢
    rw [utf8EncodeChar_ofUInt8 h.1, ih]
    rfl

end Text
end RemoteDebugger
