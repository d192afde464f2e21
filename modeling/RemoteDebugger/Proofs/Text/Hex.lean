/-
# What hexadecimal data stands for

Data is written in hexadecimal as two digits for each byte.  `Writes` says this of a text and of
bytes by the way back: in lower case the text is what the bytes are written as.

Reading takes two characters at a time, and every pair is a numeral of its own (`Pairs`).  So the
second of them may follow a plus sign, and this is all that reading takes besides data as it is
written (`Pairs.writes_iff`).
-/
import RemoteDebugger.Proofs.Text.Numeral
import RemoteDebugger.Text.Hex

namespace RemoteDebugger
namespace Hex

open Numeral (IsDigit digitValue Spells SpellsSigned plus)

/-- A capital letter as a small one; any other byte stays. -/
def lower (code : UInt8) : UInt8 := if 65 ≤ code ∧ code ≤ 90 then code + 32 else code

/-- Hexadecimal digits that stand for bytes: an even number of them, nothing else between them,
and up to the case of letters they are what the bytes are written as. -/
structure Writes (text bytes : List UInt8) : Prop where
  /-- The digits are even in number. -/
  even : Even text.length
  /-- There are only digits. -/
  digits : ∀ code ∈ text, IsDigit 16 code
  /-- The bytes are written so. -/
  lower_eq : text.map lower = encode bytes

lemma writes_iff_all {text bytes : List UInt8} : Writes text bytes ↔
    Even text.length ∧ text.all (fun code => decide (IsDigit 16 code)) ∧
      text.map lower = encode bytes := by
  rw [List.all_eq_true]
  simp only [decide_eq_true_eq]
  constructor
  · rintro ⟨heven, hdigits, hlower⟩
    exact ⟨heven, hdigits, hlower⟩
  · rintro ⟨heven, hdigits, hlower⟩
    exact ⟨heven, hdigits, hlower⟩

instance (text bytes : List UInt8) : Decidable (Writes text bytes) :=
  decidable_of_iff' _ writes_iff_all

/-- Pairs of characters, each of them a numeral, and the bytes that they spell. -/
inductive Pairs : List UInt8 → List UInt8 → Prop
  /-- No pair. -/
  | nil : Pairs [] []
  /-- A pair and more of them. -/
  | cons {a b byte : UInt8} {digits bytes : List UInt8} (hpair : SpellsSigned 16 [a, b] byte.toNat)
    (hrest : Pairs digits bytes) : Pairs (a :: b :: digits) (byte :: bytes)

variable {a b byte code : UInt8} {text bytes : List UInt8}

/-! ### Pairs -/

lemma lower_of_isDigit (h : IsDigit 16 code) : lower code = digit (digitValue code) := by
  have hlower : ∀ code : Fin 256, IsDigit 16 (UInt8.ofFin code) →
      lower (UInt8.ofFin code) = digit (digitValue (UInt8.ofFin code)) := by decide +kernel
  exact hlower code.toFin h

lemma digit_inj {m n : Nat} (hm : m < 16) (hn : n < 16) (h : digit m = digit n) : m = n := by
  have hread := congrArg (Numeral.digit? 16) h
  rw [digit?_digit hm, digit?_digit hn] at hread
  exact Option.some.inj hread

lemma value_pair (radix : Nat) (a b : UInt8) :
    Numeral.value radix [a, b] = digitValue a * radix + digitValue b := by
  simp [Numeral.value_cons]

/-- Two characters spell a byte without a sign if in lower case they are its digits. -/
lemma spells_pair_iff : Spells 16 [a, b] byte.toNat ↔
    IsDigit 16 a ∧ IsDigit 16 b ∧ [lower a, lower b] = byteDigits byte := by
  have hbyte := byte.toNat_lt
  constructor
  · intro h
    have ha := h.digits a List.mem_cons_self
    have hb := h.digits b (List.mem_cons_of_mem a List.mem_cons_self)
    have hvalue := h.value_eq
    rw [value_pair] at hvalue
    have hhigh : digitValue a = byte.toNat / 16 := by
      have := hb.2
      omega
    have hlow : digitValue b = byte.toNat % 16 := by
      have := hb.2
      omega
    refine ⟨ha, hb, ?_⟩
    rw [lower_of_isDigit ha, lower_of_isDigit hb, hhigh, hlow, byteDigits]
  · rintro ⟨ha, hb, h⟩
    rw [lower_of_isDigit ha, lower_of_isDigit hb, byteDigits, List.cons.injEq, List.cons.injEq]
      at h
    have hhigh := digit_inj ha.2 (by omega) h.1
    have hlow := digit_inj hb.2 (by omega) h.2.1
    refine ⟨List.cons_ne_nil a [b], ?_, ?_⟩
    · intro code hcode
      rw [List.mem_cons, List.mem_singleton] at hcode
      rcases hcode with rfl | rfl
      · exact ha
      · exact hb
    · rw [value_pair, hhigh, hlow]
      omega

lemma encode_cons (byte : UInt8) (bytes : List UInt8) :
    encode (byte :: bytes) = byteDigits byte ++ encode bytes := rfl

/-! ### Data -/

lemma writes_cons_iff : Writes (a :: b :: text) (byte :: bytes) ↔
    Spells 16 [a, b] byte.toNat ∧ Writes text bytes := by
  rw [spells_pair_iff]
  constructor
  · rintro ⟨heven, hdigits, hlower⟩
    rw [List.forall_mem_cons, List.forall_mem_cons] at hdigits
    obtain ⟨ha, hb, hrest⟩ := hdigits
    have hsplit : [lower a, lower b] ++ text.map lower = byteDigits byte ++ encode bytes := hlower
    obtain ⟨hpair, htail⟩ := List.append_inj hsplit rfl
    refine ⟨⟨ha, hb, hpair⟩, ?_, hrest, htail⟩
    rwa [List.length_cons, List.length_cons, Nat.even_add_one, Nat.even_add_one, not_not] at heven
  · rintro ⟨⟨ha, hb, hpair⟩, heven, hrest, htail⟩
    refine ⟨?_, ?_, ?_⟩
    · rwa [List.length_cons, List.length_cons, Nat.even_add_one, Nat.even_add_one, not_not]
    · rw [List.forall_mem_cons, List.forall_mem_cons]
      exact ⟨ha, hb, hrest⟩
    · rw [encode_cons, ← hpair, ← htail]
      rfl

lemma Writes.pairs (h : Writes text bytes) : Pairs text bytes := by
  induction bytes generalizing text with
  | nil =>
    obtain rfl : text = [] := List.map_eq_nil_iff.1 h.lower_eq
    exact .nil
  | cons byte rest ih =>
    obtain ⟨a, tail, rfl, -, htail⟩ := List.map_eq_cons_iff.1 h.lower_eq
    obtain ⟨b, text, rfl, -, -⟩ := List.map_eq_cons_iff.1 htail
    obtain ⟨hpair, hrest⟩ := writes_cons_iff.1 h
    exact .cons (.plain hpair) (ih hrest)

namespace Pairs

lemma isDigit_or_eq (h : Pairs text bytes) :
    ∀ code ∈ text, IsDigit 16 code ∨ code = plus := by
  induction h with
  | nil => simp
  | cons hpair _ ih =>
    intro code hcode
    have hpair := hpair.isDigit_or_eq
    simp only [List.mem_cons] at hcode
    rcases hcode with rfl | rfl | hcode
    · exact hpair code List.mem_cons_self
    · exact hpair code (List.mem_cons_of_mem _ List.mem_cons_self)
    · exact ih code hcode

/-- A sign is all that may be there besides data as it is written. -/
lemma writes_iff (h : Pairs text bytes) : Writes text bytes ↔ plus ∉ text := by
  induction h with
  | nil => exact iff_of_true ⟨⟨0, rfl⟩, List.forall_mem_nil _, rfl⟩ List.not_mem_nil
  | cons hpair _ ih =>
    rw [writes_cons_iff, hpair.spells_iff, ih]
    simp only [List.mem_cons, List.not_mem_nil, or_false, not_or, and_assoc]

end Pairs

/-! ### Reading -/

lemma read_pair_eq_ok_iff : Numeral.read 16 256 [a, b] = .ok byte.toNat ↔
    SpellsSigned 16 [a, b] byte.toNat := by
  rw [Numeral.read_eq_ok_iff]
  exact and_iff_left byte.toNat_lt

/-- Data is read if and only if it is pairs of characters that are numerals. -/
lemma decode?_eq_some_iff : decode? text = some bytes ↔ Pairs text bytes := by
  constructor
  · intro h
    fun_induction decode? text generalizing bytes with
    | case1 =>
      obtain rfl := Option.some.inj h
      exact .nil
    | case2 => cases h
    | case3 a b rest n hread ih =>
      obtain ⟨bytes, hrest, rfl⟩ := Option.map_eq_some_iff.1 h
      obtain ⟨-, hlt⟩ := Numeral.read_eq_ok_iff.1 hread
      refine .cons (read_pair_eq_ok_iff.1 ?_) (ih hrest)
      rw [hread, UInt8.toNat_ofNat', Nat.mod_eq_of_lt hlt]
    | case4 => cases h
  · intro h
    induction h with
    | nil => rfl
    | cons hpair _ ih =>
      rw [decode?, read_pair_eq_ok_iff.2 hpair]
      dsimp only
      rw [ih, UInt8.ofNat_toNat]
      rfl

end Hex
end RemoteDebugger
