/-
# What a numeral spells

A text of digits spells a number: its digits in a radix, the most significant first.  Zeros may
stand in front, and a letter counts the same in both cases.  `Spells` says this of a text without
looking at how numerals are read.

Reading takes more than such texts.  A numeral is a text of digits, or one with a plus sign in
front, and its number is below the limit (`read_eq_ok_iff`); the sign is all that tells the two
apart (`SpellsSigned.spells_iff`).  Of such a text nothing else can be said than that its number
is too large (`read_eq_error`).
-/
import Mathlib.Data.Nat.Digits.Defs
import Mathlib.Tactic.Ring
import RemoteDebugger.Text.Numeral

namespace RemoteDebugger
namespace Numeral

/-- The sign that a numeral may begin with. -/
def plus : UInt8 := 43

/-- What a digit counts: a figure its value, a letter of either case ten or more. -/
def digitValue (code : UInt8) : Nat :=
  if code.toNat < 58 then code.toNat - 48
  else if code.toNat < 91 then code.toNat - 55
  else code.toNat - 87

/-- A digit of a radix: a figure or a letter that counts less than the radix. -/
def IsDigit (radix : Nat) (code : UInt8) : Prop :=
  (48 ≤ code ∧ code ≤ 57 ∨ 65 ≤ code ∧ code ≤ 90 ∨ 97 ≤ code ∧ code ≤ 122) ∧
    digitValue code < radix

instance (radix : Nat) (code : UInt8) : Decidable (IsDigit radix code) :=
  inferInstanceAs (Decidable (_ ∧ _))

/-- The number that digits stand for, the most significant first. -/
def value (radix : Nat) (codes : List UInt8) : Nat :=
  Nat.ofDigits radix (codes.map digitValue).reverse

/-- A text of digits, at least one and nothing else, and the number that it spells. -/
structure Spells (radix : Nat) (codes : List UInt8) (n : Nat) : Prop where
  /-- There is a digit. -/
  ne_nil : codes ≠ []
  /-- There are only digits. -/
  digits : ∀ code ∈ codes, IsDigit radix code
  /-- The digits stand for the number. -/
  value_eq : value radix codes = n

lemma spells_iff_all {radix : Nat} {codes : List UInt8} {n : Nat} : Spells radix codes n ↔
    codes ≠ [] ∧ codes.all (fun code => decide (IsDigit radix code)) ∧ value radix codes = n := by
  rw [List.all_eq_true]
  simp only [decide_eq_true_eq]
  constructor
  · rintro ⟨hne, hdigits, hvalue⟩
    exact ⟨hne, hdigits, hvalue⟩
  · rintro ⟨hne, hdigits, hvalue⟩
    exact ⟨hne, hdigits, hvalue⟩

instance (radix : Nat) (codes : List UInt8) (n : Nat) : Decidable (Spells radix codes n) :=
  decidable_of_iff' _ spells_iff_all

/-- A text of digits, perhaps behind a plus sign, and the number that it spells. -/
inductive SpellsSigned (radix : Nat) : List UInt8 → Nat → Prop
  /-- Digits only. -/
  | plain {codes : List UInt8} {n : Nat} (h : Spells radix codes n) : SpellsSigned radix codes n
  /-- Digits behind a sign. -/
  | signed {digits : List UInt8} {n : Nat} (h : Spells radix digits n) :
    SpellsSigned radix (plus :: digits) n

variable {radix limit n : Nat} {code : UInt8} {codes : List UInt8}

/-! ### Digits -/

lemma not_isDigit_plus : ¬ IsDigit radix plus := by
  rintro ⟨h, -⟩
  revert h
  decide

/-- A digit is ASCII. -/
lemma IsDigit.lt (h : IsDigit radix code) : code < 0x80 := by
  obtain ⟨h, -⟩ := h
  simp only [UInt8.le_iff_toNat_le, UInt8.lt_iff_toNat_lt, UInt8.reduceToNat] at h ⊢
  omega

lemma digit?_eq_some_iff {d : Nat} :
    digit? radix code = some d ↔ IsDigit radix code ∧ d = digitValue code := by
  simp only [digit?, digitValue?, IsDigit, digitValue, Option.filter_eq_some_iff,
    decide_eq_true_eq, Bool.and_eq_true, UInt8.le_iff_toNat_le, UInt8.reduceToNat]
  constructor
  · rintro ⟨hvalue, hlt⟩
    split at hvalue
    · cases hvalue
      rw [if_pos (by omega)]
      omega
    · split at hvalue
      · cases hvalue
        rw [if_neg (by omega), if_neg (by omega)]
        omega
      · split at hvalue
        · cases hvalue
          rw [if_neg (by omega), if_pos (by omega)]
          omega
        · cases hvalue
  · rintro ⟨⟨hrange, hlt⟩, rfl⟩
    refine ⟨?_, hlt⟩
    rcases hrange with hfigure | hcapital | hsmall
    · rw [if_pos hfigure, if_pos (by omega)]
    · rw [if_neg (by omega), if_neg (by omega), if_pos hcapital, if_neg (by omega),
        if_pos (by omega)]
    · rw [if_neg (by omega), if_pos hsmall, if_neg (by omega), if_neg (by omega)]

/-- A digit is one of any greater radix. -/
lemma IsDigit.mono {radix' : Nat} (h : IsDigit radix code) (hle : radix ≤ radix') :
    IsDigit radix' code :=
  ⟨h.1, Nat.lt_of_lt_of_le h.2 hle⟩

/-! ### Numbers -/

@[simp] lemma value_nil : value radix [] = 0 := rfl

lemma value_cons :
    value radix (code :: codes) = digitValue code * radix ^ codes.length + value radix codes := by
  rw [value, List.map_cons, Nat.ofDigits_reverse_cons, List.length_map, ← value]
  ring

/-- Digits stand for no smaller a number in a greater radix. -/
lemma value_mono {radix' : Nat} (hle : radix ≤ radix') (codes : List UInt8) :
    value radix codes ≤ value radix' codes :=
  Nat.ofDigits_monotone _ hle

/-- Reading digits goes on with a number from its value: it ends well if there are only digits
and the number that they end up with is below the limit. -/
lemma readDigits_eq_ok_iff {front : Nat} :
    readDigits radix limit front codes = .ok n ↔
      (∀ code ∈ codes, IsDigit radix code) ∧
        n = front * radix ^ codes.length + value radix codes ∧ (codes = [] ∨ n < limit) := by
  induction codes generalizing front with
  | nil => simp [readDigits, eq_comm]
  | cons code rest ih =>
    rw [readDigits, List.forall_mem_cons]
    rcases hdigit : digit? radix code with _ | d
    · -- what is no digit is refused
      constructor
      · intro h
        cases h
      · rintro ⟨⟨hcode, -⟩, -⟩
        rw [digit?_eq_some_iff.2 ⟨hcode, rfl⟩] at hdigit
        cases hdigit
    · obtain ⟨hcode, rfl⟩ := digit?_eq_some_iff.1 hdigit
      have hstep : (front * radix + digitValue code) * radix ^ rest.length + value radix rest =
          front * radix ^ (code :: rest).length + value radix (code :: rest) := by
        rw [value_cons, List.length_cons]
        ring
      dsimp only
      rw [← hstep]
      split
      · next hlt =>
        rw [ih]
        constructor
        · rintro ⟨hrest, rfl, hlimit⟩
          refine ⟨⟨hcode, hrest⟩, rfl, .inr ?_⟩
          rcases hlimit with rfl | hlimit
          · simpa using hlt
          · exact hlimit
        · rintro ⟨⟨-, hrest⟩, rfl, hlimit⟩
          exact ⟨hrest, rfl, .inr (hlimit.resolve_left (List.cons_ne_nil _ _))⟩
      · next hlarge =>
        -- a number never gets smaller by a further digit
        constructor
        · intro h
          cases h
        · rintro ⟨-, rfl, hlimit⟩
          have hpos : 0 < radix := lt_of_le_of_lt (Nat.zero_le _) hcode.2
          have hgrow := Nat.le_mul_of_pos_right (front * radix + digitValue code)
            (Nat.pow_pos (n := rest.length) hpos)
          have hlt := hlimit.resolve_left (List.cons_ne_nil _ _)
          omega

namespace SpellsSigned

lemma ne_nil (h : SpellsSigned radix codes n) : codes ≠ [] := by
  cases h with
  | plain h => exact h.ne_nil
  | signed h => exact List.cons_ne_nil _ _

lemma isDigit_or_eq (h : SpellsSigned radix codes n) :
    ∀ code ∈ codes, IsDigit radix code ∨ code = plus := by
  cases h with
  | plain h =>
    intro code hcode
    exact .inl (h.digits code hcode)
  | signed h =>
    intro code hcode
    rcases List.mem_cons.1 hcode with rfl | hcode
    · exact .inr rfl
    · exact .inl (h.digits code hcode)

lemma notMem (h : SpellsSigned radix codes n) (hdigit : ¬ IsDigit radix code)
    (hplus : code ≠ plus) : code ∉ codes := by
  intro hcode
  rcases h.isDigit_or_eq code hcode with hdigit' | rfl
  · exact hdigit hdigit'
  · exact hplus rfl

/-- A sign is all that may be there besides digits. -/
lemma spells_iff (h : SpellsSigned radix codes n) : Spells radix codes n ↔ plus ∉ codes := by
  constructor
  · intro hspells hplus
    exact not_isDigit_plus (hspells.digits plus hplus)
  · intro hplus
    cases h with
    | plain h => exact h
    | signed h => exact absurd List.mem_cons_self hplus

/-- A text spells no more than one number. -/
lemma unique {m : Nat} (h : SpellsSigned radix codes n) (h' : SpellsSigned radix codes m) :
    n = m := by
  cases h with
  | plain h =>
    cases h' with
    | plain h' => exact h.value_eq.symm.trans h'.value_eq
    | signed h' => exact absurd (h.digits plus List.mem_cons_self) not_isDigit_plus
  | signed h =>
    cases h' with
    | plain h' => exact absurd (h'.digits plus List.mem_cons_self) not_isDigit_plus
    | signed h' => exact h.value_eq.symm.trans h'.value_eq

end SpellsSigned

/-! ### Reading -/

lemma readDigits_zero_eq_ok_iff (hne : codes ≠ []) :
    readDigits radix limit 0 codes = .ok n ↔ Spells radix codes n ∧ n < limit := by
  rw [readDigits_eq_ok_iff, Nat.zero_mul, Nat.zero_add]
  constructor
  · rintro ⟨hdigits, hvalue, hlimit⟩
    exact ⟨⟨hne, hdigits, hvalue.symm⟩, hlimit.resolve_left hne⟩
  · rintro ⟨hspells, hlimit⟩
    exact ⟨hspells.digits, hspells.value_eq.symm, .inr hlimit⟩

/-- A numeral is read if and only if it spells a number below the limit, with or without a plus
sign. -/
lemma read_eq_ok_iff : read radix limit codes = .ok n ↔ SpellsSigned radix codes n ∧ n < limit := by
  have hplain (hne : codes ≠ []) (hplus : codes.head? ≠ some plus) :
      readDigits radix limit 0 codes = .ok n ↔ SpellsSigned radix codes n ∧ n < limit := by
    rw [readDigits_zero_eq_ok_iff hne]
    refine and_congr_left fun _ => ⟨.plain, ?_⟩
    intro hsigned
    cases hsigned with
    | plain h => exact h
    | signed h => exact absurd rfl hplus
  unfold read
  split
  · -- nothing to read
    constructor
    · intro h
      cases h
    · rintro ⟨⟨h⟩, -⟩
      exact absurd rfl h.ne_nil
  · -- a sign alone
    constructor
    · intro h
      cases h
    · rintro ⟨h | h, -⟩
      · exact absurd (h.digits plus List.mem_cons_self) not_isDigit_plus
      · exact absurd rfl h.ne_nil
  · next digits hne =>
    rw [readDigits_zero_eq_ok_iff (by rintro rfl; exact hne rfl)]
    refine and_congr_left fun _ => ⟨.signed, ?_⟩
    rintro (h | h)
    · exact absurd (h.digits plus List.mem_cons_self) not_isDigit_plus
    · exact h
  · next hnil _ hsigned =>
    refine hplain hnil ?_
    intro hhead
    obtain ⟨digits, rfl⟩ := List.head?_eq_some_iff.1 hhead
    exact hsigned digits rfl

/-- All that can be wrong with digits is that their number is too large. -/
lemma readDigits_eq_error {front : Nat} {e : NumeralError}
    (hdigits : ∀ code ∈ codes, IsDigit radix code)
    (h : readDigits radix limit front codes = .error e) : e = .tooLarge := by
  induction codes generalizing front with
  | nil => cases h
  | cons code rest ih =>
    obtain ⟨hcode, hrest⟩ := List.forall_mem_cons.1 hdigits
    rw [readDigits, digit?_eq_some_iff.2 ⟨hcode, rfl⟩] at h
    dsimp only at h
    split at h
    · exact ih hrest h
    · cases h
      rfl

lemma read_eq_error {e : NumeralError} (h : SpellsSigned radix codes n)
    (he : read radix limit codes = .error e) : e = .tooLarge := by
  have hsign {digits : List UInt8} (h : Spells radix (plus :: digits) n) : False :=
    not_isDigit_plus (h.digits plus List.mem_cons_self)
  unfold read at he
  split at he
  · exact absurd rfl h.ne_nil
  · cases h with
    | plain h => exact (hsign h).elim
    | signed h => exact absurd rfl h.ne_nil
  · cases h with
    | plain h => exact (hsign h).elim
    | signed h => exact readDigits_eq_error h.digits he
  · next hsigned =>
    cases h with
    | plain h => exact readDigits_eq_error h.digits he
    | signed h => exact absurd rfl (hsigned _)

/-- A numeral is read as the number that it spells, or this is too large for a word. -/
lemma readWord_of_spells (h : SpellsSigned radix codes n) :
    readWord radix codes = if n < 2 ^ 32 then .ok (UInt32.ofNat n) else .error .tooLarge := by
  rw [readWord]
  split
  · next hlt =>
    have hread : read radix 0x100000000 codes = .ok n := read_eq_ok_iff.2 ⟨h, hlt⟩
    rw [hread]
    rfl
  · next hlarge =>
    rcases hread : read radix 0x100000000 codes with e | m
    · obtain rfl := read_eq_error h hread
      rfl
    · obtain ⟨hspells, hlimit⟩ := read_eq_ok_iff.1 hread
      exact absurd (hspells.unique h ▸ hlimit) hlarge

lemma hexWord?_eq_some_iff {w : UInt32} :
    hexWord? codes = some w ↔ SpellsSigned 16 codes w.toNat := by
  rw [hexWord?, readWord]
  have hw := w.toNat_lt
  constructor
  · intro h
    rcases hread : read 16 0x100000000 codes with e | n
    · rw [hread] at h
      cases h
    · rw [hread] at h
      obtain ⟨hspells, hlimit⟩ := read_eq_ok_iff.1 hread
      obtain rfl : UInt32.ofNat n = w := Option.some.inj h
      rwa [UInt32.toNat_ofNat_of_lt' hlimit]
  · intro h
    rw [read_eq_ok_iff.2 ⟨h, hw⟩]
    exact congrArg some UInt32.ofNat_toNat

/-- A number is read as a word if it fits into one. -/
lemma hexWord?_of_spells (h : SpellsSigned 16 codes n) :
    hexWord? codes = if n < 2 ^ 32 then some (UInt32.ofNat n) else none := by
  rw [hexWord?, readWord_of_spells h]
  split
  · rfl
  · rfl

end Numeral
end RemoteDebugger
