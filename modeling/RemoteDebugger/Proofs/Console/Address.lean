/-
# What an address of digits stands for

An address is written with figures, or with hexadecimal digits behind a mark, or with
hexadecimal digits alone if a letter among them tells that they are not decimal.  `Denotes` says
which number is meant.  This number is read, whatever blanks stand around the digits, unless no
word holds it (`parseAddress_of_denotes`).

Figures are tried as a decimal number first and then as a hexadecimal one.  The second attempt
never finds another number: figures fail as a decimal number only if that is too large, and in
the greater radix they stand for no smaller one (`readWord_sixteen_of_large`).
-/
import RemoteDebugger.Console.Address
import RemoteDebugger.Proofs.Text.Numeral

namespace RemoteDebugger

/-! ### Blanks -/

namespace Text

lemma trimStart_append {front rest : List Char} (hfront : ∀ c ∈ front, isBlank c)
    (hrest : ∀ c ∈ rest.head?, isBlank c = false) : trimStart (front ++ rest) = rest := by
  rw [trimStart, List.dropWhile_append_of_pos hfront]
  cases rest with
  | nil => rfl
  | cons c rest => rw [List.dropWhile_cons, hrest c rfl, if_neg Bool.false_ne_true]

/-- Blanks around a text without blanks are taken away, and nothing else is. -/
lemma trim_append {front body back : String} (hfront : ∀ c ∈ front.toList, isBlank c)
    (hback : ∀ c ∈ back.toList, isBlank c) (hbody : ∀ c ∈ body.toList, isBlank c = false) :
    trim (front ++ body ++ back) = body := by
  suffices h : (trimStart (trimStart (front ++ body ++ back).toList).reverse).reverse =
      body.toList by
    rw [trim, h, String.ofList_toList]
  rw [String.toList_append, String.toList_append]
  generalize body.toList = chars at hbody
  rcases chars with _ | ⟨c, rest⟩
  · -- nothing but blanks, and all are taken from the start
    have hblank : ∀ c ∈ front.toList ++ [] ++ back.toList, isBlank c := by
      rw [List.append_nil, List.forall_mem_append]
      exact ⟨hfront, hback⟩
    have hnil : trimStart (front.toList ++ [] ++ back.toList ++ []) = [] :=
      trimStart_append hblank (by simp)
    rw [List.append_nil (front.toList ++ [] ++ back.toList)] at hnil
    rw [hnil]
    rfl
  · have hreverse : ∀ c ∈ back.toList.reverse, isBlank c := by
      intro c hc
      exact hback c (List.mem_reverse.1 hc)
    rw [List.append_assoc, trimStart_append hfront, List.reverse_append, trimStart_append hreverse,
      List.reverse_reverse]
    · intro b hb
      exact hbody b (List.mem_reverse.1 (List.mem_of_mem_head? hb))
    · intro b hb
      obtain rfl := Option.some.inj hb
      exact hbody c List.mem_cons_self

end Text

namespace Console

open Numeral (IsDigit Spells)

/-! ### Digits -/

/-- The digits of an address, whether they are marked as hexadecimal, and the number that they
stand for. -/
inductive Denotes : Bool → List UInt8 → Nat → Prop
  /-- Figures stand for a decimal number. -/
  | decimal {digits : List UInt8} {n : Nat} (h : Spells 10 digits n) : Denotes false digits n
  /-- Digits behind a mark stand for a hexadecimal number. -/
  | marked {mark : UInt8} {digits : List UInt8} {n : Nat} (hmark : mark = 0x78 ∨ mark = 0x58)
    (h : Spells 16 digits n) : Denotes true (0x30 :: mark :: digits) n
  /-- So do digits without a mark if one of them is a letter. -/
  | lettered {digits : List UInt8} {n : Nat} (h : Spells 16 digits n)
    (hletter : ∃ code ∈ digits, ¬ IsDigit 10 code) : Denotes false digits n

variable {marked : Bool} {codes : List UInt8} {n : Nat}

/-- All characters of an address are figures and letters, the mark among them. -/
lemma Denotes.isDigit (h : Denotes marked codes n) : ∀ code ∈ codes, IsDigit 36 code := by
  cases h with
  | decimal h => exact fun code hcode => (h.digits code hcode).mono (by decide)
  | marked hmark h =>
    rw [List.forall_mem_cons, List.forall_mem_cons]
    refine ⟨by decide, ?_, fun code hcode => (h.digits code hcode).mono (by decide)⟩
    rcases hmark with rfl | rfl
    · decide
    · decide
  | lettered h _ => exact fun code hcode => (h.digits code hcode).mono (by decide)

lemma isBlank_of_isDigit {code : UInt8} (h : IsDigit 36 code) :
    Text.isBlank (Char.ofUInt8 code) = false := by
  have hblank : ∀ code : Fin 256, IsDigit 36 (UInt8.ofFin code) →
      Text.isBlank (Char.ofUInt8 (UInt8.ofFin code)) = false := by decide +kernel
  exact hblank code.toFin h

/-- The letter of a mark is no digit. -/
lemma unmarked?_of_isDigit (h : ∀ code ∈ codes, IsDigit 16 code) : unmarked? codes = none := by
  have hsecond (mark : UInt8) (rest : List UInt8) (hmark : ¬ IsDigit 16 mark) :
      codes ≠ 0x30 :: mark :: rest := by
    rintro rfl
    exact hmark (h mark (List.mem_cons_of_mem _ List.mem_cons_self))
  unfold unmarked?
  split
  · exact absurd rfl (hsecond _ _ (by decide))
  · exact absurd rfl (hsecond _ _ (by decide))
  · rfl

/-! ### Reading -/

/-- Figures that are no word as a decimal number are none as a hexadecimal one either. -/
lemma readWord_sixteen_of_large (h : Spells 10 codes n) (hlarge : 2 ^ 32 ≤ n) :
    Numeral.readWord 16 codes = .error .tooLarge := by
  have hdigits : ∀ code ∈ codes, IsDigit 16 code :=
    fun code hcode => (h.digits code hcode).mono (by decide)
  have hmono : Numeral.value 10 codes ≤ Numeral.value 16 codes :=
    Numeral.value_mono (by decide) codes
  rw [h.value_eq] at hmono
  rw [Numeral.readWord_of_spells (.plain ⟨h.ne_nil, hdigits, rfl⟩), if_neg (by omega)]

/-- Where a letter stands among the digits no decimal number is read. -/
lemma readWord_ten_of_letter (h : Spells 16 codes n) (hletter : ∃ code ∈ codes, ¬ IsDigit 10 code) :
    ∃ e, Numeral.readWord 10 codes = .error e := by
  obtain ⟨code, hcode, hdigit⟩ := hletter
  have hplus : code ≠ Numeral.plus := by
    rintro rfl
    exact Numeral.not_isDigit_plus (h.digits _ hcode)
  rcases hread : Numeral.read 10 0x100000000 codes with e | m
  · exact ⟨e, by rw [Numeral.readWord, hread]; rfl⟩
  · exact absurd hcode ((Numeral.read_eq_ok_iff.1 hread).1.notMem hdigit hplus)

namespace Denotes

variable {front back : String}

/-- No blank is taken from inside of an address. -/
lemma trim_append (h : Denotes marked codes n) (hfront : ∀ c ∈ front.toList, Text.isBlank c)
    (hback : ∀ c ∈ back.toList, Text.isBlank c) :
    Text.trim (front ++ Text.ofCodes codes ++ back) = Text.ofCodes codes := by
  refine Text.trim_append hfront hback ?_
  rw [Text.ofCodes, String.toList_ofList, List.forall_mem_map]
  exact fun code hcode => isBlank_of_isDigit (h.isDigit code hcode)

lemma utf8_ofCodes (h : Denotes marked codes n) : Text.utf8 (Text.ofCodes codes) = codes := by
  refine Text.utf8_ofCodes ?_
  rw [Text.isAscii, List.all_eq_true]
  exact fun code hcode => decide_eq_true (h.isDigit code hcode).lt

lemma parseAddress_append (h : Denotes marked codes n)
    (hfront : ∀ c ∈ front.toList, Text.isBlank c) (hback : ∀ c ∈ back.toList, Text.isBlank c) :
    parseAddress (front ++ Text.ofCodes codes ++ back) =
      if n < 2 ^ 32 then .ok (UInt32.ofNat n)
      else .error { text := Text.ofCodes codes, marked, cause := .tooLarge } := by
  unfold parseAddress
  rw [h.trim_append hfront hback]
  dsimp only
  rw [h.utf8_ofCodes]
  cases h with
  | decimal h =>
    have hdigits : ∀ code ∈ codes, IsDigit 16 code :=
      fun code hcode => (h.digits code hcode).mono (by decide)
    rw [unmarked?_of_isDigit hdigits, Numeral.readWord_of_spells (.plain h)]
    by_cases hlt : n < 2 ^ 32
    · simp only [if_pos hlt]
    · simp only [if_neg hlt, readWord_sixteen_of_large h (Nat.le_of_not_lt hlt)]
  | @marked mark digits _ hmark h =>
    have hunmarked : unmarked? (0x30 :: mark :: digits) = some digits := by
      rcases hmark with rfl | rfl
      · rfl
      · rfl
    rw [hunmarked]
    dsimp only
    rw [Numeral.readWord_of_spells (.plain h)]
    by_cases hlt : n < 2 ^ 32
    · simp only [if_pos hlt]
    · simp only [if_neg hlt]
  | lettered h hletter =>
    obtain ⟨e, hten⟩ := readWord_ten_of_letter h hletter
    rw [unmarked?_of_isDigit h.digits, hten, Numeral.readWord_of_spells (.plain h)]
    by_cases hlt : n < 2 ^ 32
    · simp only [if_pos hlt]
    · simp only [if_neg hlt]

end Denotes

/-- An address of digits is read as the number that they stand for, whatever blanks stand around
them, and refused if no word holds the number.  So figures are never taken for hexadecimal
digits, and where there are only blanks there is no address. -/
theorem parseAddress_of_denotes {front back : String} (hfront : ∀ c ∈ front.toList, Text.isBlank c)
    (hback : ∀ c ∈ back.toList, Text.isBlank c) :
    (∀ marked codes n, Denotes marked codes n →
      parseAddress (front ++ Text.ofCodes codes ++ back) =
        if n < 2 ^ 32 then .ok (UInt32.ofNat n)
        else .error { text := Text.ofCodes codes, marked, cause := .tooLarge }) ∧
      parseAddress (front ++ back) = .error { text := "", marked := false, cause := .empty } := by
  refine ⟨fun _ _ _ h => h.parseAddress_append hfront hback, ?_⟩
  have htrim : Text.trim (front ++ back) = "" := by
    have h : Text.trim (front ++ "" ++ back) = "" := Text.trim_append hfront hback (by simp)
    rwa [String.append_empty] at h
  unfold parseAddress
  rw [htrim]
  rfl

/-- The first number that no word holds in figures, the last one that a word holds in hexadecimal
digits, and digits with a letter that would be decimal without it. -/
theorem parseAddress_around_last_word :
    (∀ c ∈ "\u3000\t".toList, Text.isBlank c) ∧ (∀ c ∈ "\u0085 ".toList, Text.isBlank c) ∧
      Denotes false (Text.utf8 "004294967296") 0x100000000 ∧
      Denotes true (Text.utf8 "0X00fFfFfFfF") 0xffffffff ∧
      Denotes false (Text.utf8 "0012c34") 0x12c34 ∧
      parseAddress "\u3000\t004294967296\u0085 " =
        .error { text := "004294967296", marked := false, cause := .tooLarge } ∧
      parseAddress "\u3000\t0X00fFfFfFfF\u0085 " = .ok 0xffffffff ∧
      parseAddress "\u3000\t0012c34\u0085 " = .ok 0x12c34 ∧
      parseAddress "\u3000\t\u0085 " =
        .error { text := "", marked := false, cause := .empty } := by
  have hfront : ∀ c ∈ "\u3000\t".toList, Text.isBlank c :=
    List.all_eq_true.1 (by decide +kernel)
  have hback : ∀ c ∈ "\u0085 ".toList, Text.isBlank c :=
    List.all_eq_true.1 (by decide +kernel)
  have hdecimal : Denotes false (Text.utf8 "004294967296") 0x100000000 :=
    .decimal (by decide +kernel)
  have hmarked : Denotes true (Text.utf8 "0X00fFfFfFfF") 0xffffffff :=
    .marked (.inr rfl) (by decide +kernel)
  have hlettered : Denotes false (Text.utf8 "0012c34") 0x12c34 :=
    .lettered (by decide +kernel) (by decide +kernel)
  obtain ⟨hread, hempty⟩ := parseAddress_of_denotes hfront hback
  have hlarge := hread _ _ _ hdecimal
  have hlast := hread _ _ _ hmarked
  have hletter := hread _ _ _ hlettered
  exact ⟨hfront, hback, hdecimal, hmarked, hlettered, hlarge, hlast, hletter, hempty⟩

end Console
end RemoteDebugger
