/-
# Plain text on the wire

Plain text is what ASCII bytes spell: it is written as these bytes and read from them.
Several texts with a separator between them are read back as they were if none of them has
the separator in it; and what is read always is such texts.
-/
import Mathlib.Tactic.Common
import RemoteDebugger.Wire.Decoding
import RemoteDebugger.Wire.Encoding

namespace RemoteDebugger

namespace Text

lemma val_ofUInt8 (b : UInt8) : (Char.ofUInt8 b).val = b.toUInt32 := rfl

lemma ofUInt8_inj {a b : UInt8} : Char.ofUInt8 a = Char.ofUInt8 b ↔ a = b := by
  constructor
  · intro h
    have hval : a.toUInt32.toNat = b.toUInt32.toNat := congrArg (·.val.toNat) h
    rwa [UInt8.toNat_toUInt32, UInt8.toNat_toUInt32, UInt8.toNat_inj] at hval
  · rintro rfl
    rfl

lemma ofUInt8_toUInt8 {c : Char} (h : c.val < 0x80) : Char.ofUInt8 c.val.toUInt8 = c := by
  apply Char.ext
  rw [val_ofUInt8, ← UInt32.toNat_inj, UInt8.toNat_toUInt32, UInt32.toNat_toUInt8]
  have : c.val.toNat < 128 := h
  omega

lemma eq_ofCodes_of_ofAscii? {bytes : List UInt8} {text : String}
    (h : ofAscii? bytes = some text) : isAscii bytes = true ∧ text = ofCodes bytes := by
  simp only [ofAscii?] at h
  split at h
  · next hascii => exact ⟨hascii, (Option.some.inj h).symm⟩
  · cases h

lemma isAscii_iff {bytes : List UInt8} : isAscii bytes = true ↔ ∀ b ∈ bytes, b < 0x80 := by
  rw [isAscii, List.all_eq_true]
  exact forall₂_congr fun b _ => decide_eq_true_iff

end Text

namespace Message

variable {excluded : Option Char}

/-- What ASCII bytes spell is plain text. -/
lemma plainText_ofCodes {bytes : List UInt8} (hascii : Text.isAscii bytes = true)
    (hexcluded : ∀ b ∈ bytes, some (Char.ofUInt8 b) ≠ excluded) :
    PlainText excluded (Text.ofCodes bytes) := by
  intro c hc
  rw [Text.ofCodes, String.toList_ofList, List.mem_map] at hc
  obtain ⟨b, hb, rfl⟩ := hc
  refine ⟨?_, hexcluded b hb⟩
  have hlt : b.toNat < 128 := Text.isAscii_iff.1 hascii b hb
  rw [Text.val_ofUInt8, UInt32.lt_iff_toNat_lt, UInt8.toNat_toUInt32]
  exact hlt

/-- ASCII bytes without a given one spell text without its character. -/
lemma plainText_ofCodes_of_notMem (separator : UInt8) {bytes : List UInt8}
    (hascii : Text.isAscii bytes = true) (h : separator ∉ bytes) :
    PlainText (some (Char.ofUInt8 separator)) (Text.ofCodes bytes) := by
  refine plainText_ofCodes hascii ?_
  intro b hb heq
  rw [Option.some.injEq, Text.ofUInt8_inj] at heq
  exact h (heq ▸ hb)

/-- Plain text is what ASCII bytes spell. -/
lemma exists_codes_of_plainText {text : String} (h : PlainText excluded text) :
    ∃ bytes, Text.ofCodes bytes = text ∧ Text.isAscii bytes = true ∧
      ∀ b ∈ bytes, some (Char.ofUInt8 b) ≠ excluded := by
  have hback (c : Char) (hc : c ∈ text.toList) : Char.ofUInt8 c.val.toUInt8 = c :=
    Text.ofUInt8_toUInt8 (h c hc).1
  refine ⟨text.toList.map fun c => c.val.toUInt8, ?_, ?_, ?_⟩
  · rw [Text.ofCodes, List.map_map]
    calc String.ofList (text.toList.map (Char.ofUInt8 ∘ fun c => c.val.toUInt8))
        = String.ofList (text.toList.map id) :=
          congrArg String.ofList (List.map_congr_left hback)
      _ = text := by rw [List.map_id, String.ofList_toList]
  · rw [Text.isAscii_iff]
    intro b hb
    obtain ⟨c, hc, rfl⟩ := List.mem_map.1 hb
    have hlt : c.val.toNat < 128 := (h c hc).1
    rw [UInt8.lt_iff_toNat_lt, UInt32.toNat_toUInt8]
    change c.val.toNat % 256 < 128
    omega
  · intro b hb
    obtain ⟨c, hc, rfl⟩ := List.mem_map.1 hb
    rw [hback c hc]
    exact (h c hc).2

lemma PlainText.append {s t : String} (hs : PlainText excluded s) (ht : PlainText excluded t) :
    PlainText excluded (s ++ t) := by
  intro c hc
  rw [String.toList_append, List.mem_append] at hc
  exact hc.elim (hs c) (ht c)

/-- The exclusion may be left out. -/
lemma PlainText.ascii {text : String} (h : PlainText excluded text) : PlainText none text :=
  fun c hc => ⟨(h c hc).1, Option.some_ne_none c⟩

/-- Plain text is read from the bytes that it is written as. -/
lemma ofAscii?_utf8 {text : String} (h : PlainText excluded text) :
    Text.ofAscii? (Text.utf8 text) = some text := by
  obtain ⟨bytes, rfl, hascii, -⟩ := exists_codes_of_plainText h
  rw [Text.utf8_ofCodes hascii, Text.ofAscii?, if_pos hascii]

/-! ### Separated texts -/

lemma mem_of_mem_splitOn {a : UInt8} {bytes part : List UInt8} (h : part ∈ bytes.splitOn a) :
    a ∉ part ∧ ∀ b ∈ part, b ∈ bytes := by
  induction bytes generalizing part with
  | nil =>
    obtain rfl : part = [] := by simpa [List.splitOn_eq_singleton] using h
    exact ⟨List.not_mem_nil, fun b hb => hb⟩
  | cons x rest ih =>
    rw [List.splitOn_cons_eq_if_modifyHead] at h
    split at h
    · rcases List.mem_cons.1 h with rfl | h
      · exact ⟨List.not_mem_nil, fun b hb => absurd hb List.not_mem_nil⟩
      · exact ⟨(ih h).1, fun b hb => List.mem_cons_of_mem x ((ih h).2 b hb)⟩
    · next hx =>
      rcases hsplit : rest.splitOn a with _ | ⟨first, others⟩
      · exact absurd hsplit (List.splitOn_ne_nil a rest)
      · rw [hsplit, List.modifyHead_cons] at h
        rw [hsplit] at ih
        rcases List.mem_cons.1 h with rfl | h
        · obtain ⟨hfirst, hsub⟩ := ih List.mem_cons_self
          refine ⟨?_, fun b hb => ?_⟩
          · rw [List.mem_cons, not_or]
            exact ⟨fun heq => hx (beq_iff_eq.2 heq.symm), hfirst⟩
          · rcases List.mem_cons.1 hb with rfl | hb
            · exact List.mem_cons_self
            · exact List.mem_cons_of_mem x (hsub b hb)
        · obtain ⟨hpart, hsub⟩ := ih (List.mem_cons_of_mem first h)
          exact ⟨hpart, fun b hb => List.mem_cons_of_mem x (hsub b hb)⟩

lemma isAscii_intercalate {separator : UInt8} (hseparator : separator < 0x80)
    {parts : List (List UInt8)} (h : ∀ part ∈ parts, Text.isAscii part = true) :
    Text.isAscii ([separator].intercalate parts) = true := by
  induction parts with
  | nil => rfl
  | cons part rest ih =>
    obtain ⟨hpart, hrest⟩ := List.forall_mem_cons.1 h
    cases rest with
    | nil => simpa using hpart
    | cons next rest =>
      rw [List.intercalate_cons_cons, Text.isAscii_iff]
      intro b hb
      rw [List.mem_append, List.mem_append, List.mem_singleton] at hb
      rcases hb with (hb | rfl) | hb
      · exact Text.isAscii_iff.1 hpart b hb
      · exact hseparator
      · exact Text.isAscii_iff.1 (ih hrest) b hb

/-- Texts are read from what they are written as, separated. -/
lemma asTexts_joined {field : String} {separator : UInt8} (hseparator : separator < 0x80)
    {texts : List String} (hne : texts ≠ [])
    (h : ∀ text ∈ texts, PlainText (some (Char.ofUInt8 separator)) text) :
    asTexts field separator (joined separator texts) = .ok texts := by
  obtain ⟨parts, hparts, hascii, hexcluded⟩ : ∃ parts : List (List UInt8),
      parts.map Text.ofCodes = texts ∧ (∀ part ∈ parts, Text.isAscii part = true) ∧
        ∀ part ∈ parts, separator ∉ part := by
    clear hne
    induction texts with
    | nil => exact ⟨[], rfl, by simp, by simp⟩
    | cons text rest ih =>
      obtain ⟨htext, hrest⟩ := List.forall_mem_cons.1 h
      obtain ⟨bytes, hbytes, hascii, hexcluded⟩ := exists_codes_of_plainText htext
      obtain ⟨parts, hparts, hasciis, hexcludeds⟩ := ih hrest
      refine ⟨bytes :: parts, ?_, List.forall_mem_cons.2 ⟨hascii, hasciis⟩,
        List.forall_mem_cons.2 ⟨fun hmem => hexcluded separator hmem rfl, hexcludeds⟩⟩
      rw [List.map_cons, hbytes, hparts]
  have hjoined : joined separator texts = [separator].intercalate parts := by
    rw [joined, ← hparts, List.map_map]
    congr 1
    calc parts.map (Text.utf8 ∘ Text.ofCodes)
        = parts.map id :=
          List.map_congr_left fun part hpart => Text.utf8_ofCodes (hascii part hpart)
      _ = parts := List.map_id parts
  have hsplit : ([separator].intercalate parts).splitOn separator = parts := by
    refine List.splitOn_intercalate separator hexcluded ?_
    rintro rfl
    exact hne hparts.symm
  rw [asTexts, hjoined, if_pos (isAscii_intercalate hseparator hascii), hsplit, hparts]

/-- What is read as texts is what they are written as. -/
lemma asTexts_eq_ok {field : String} {separator : UInt8} {bytes : List UInt8}
    {texts : List String} (h : asTexts field separator bytes = .ok texts) :
    joined separator texts = bytes ∧
      ∀ text ∈ texts, PlainText (some (Char.ofUInt8 separator)) text := by
  simp only [asTexts] at h
  split at h
  · next hascii =>
    obtain rfl := Except.ok.inj h
    have hpart (part : List UInt8) (hpart : part ∈ bytes.splitOn separator) :
        Text.isAscii part = true :=
      Text.isAscii_iff.2 fun b hb =>
        Text.isAscii_iff.1 hascii b ((mem_of_mem_splitOn hpart).2 b hb)
    refine ⟨?_, fun text htext => ?_⟩
    · rw [joined, List.map_map]
      calc [separator].intercalate ((bytes.splitOn separator).map (Text.utf8 ∘ Text.ofCodes))
          = [separator].intercalate ((bytes.splitOn separator).map id) :=
            congrArg _ (List.map_congr_left fun part hmem => Text.utf8_ofCodes (hpart part hmem))
        _ = bytes := by rw [List.map_id, List.intercalate_splitOn]
    · obtain ⟨part, hmem, rfl⟩ := List.mem_map.1 htext
      exact plainText_ofCodes_of_notMem separator (hpart part hmem) (mem_of_mem_splitOn hmem).1
  · cases h

end Message
end RemoteDebugger
