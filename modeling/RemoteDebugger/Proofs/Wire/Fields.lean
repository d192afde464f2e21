/-
# The fields of messages

What is written for a field is read from the front of the bytes, whatever stands behind it;
and a field that is read is what it is written as, and stands there.  The first says that
nothing is lost, the second that nothing is read that would be written differently.
-/
import Mathlib.Data.List.TakeWhile
import RemoteDebugger.Proofs.Wire.PlainText

namespace RemoteDebugger
namespace Message

/-! ### Words and bytes -/

/-- A computation that succeeds does so in each of its parts. -/
lemma exists_of_bind {ε α β : Type} {x : Except ε α} {f : α → Except ε β} {b : β}
    (h : x >>= f = .ok b) : ∃ a, x = .ok a ∧ f a = .ok b := by
  cases x with
  | error e => cases h
  | ok a => exact ⟨a, rfl, h⟩

lemma takeWord_append (field : String) (value : UInt32) (rest : List UInt8) :
    takeWord field (Word.bigEndian value ++ rest) = .ok (value, rest) := by
  change Except.ok (Word.ofBytes _ _ _ _, rest) = _
  rw [Word.ofBytes_byteAt]

lemma takeWord_eq_ok {field : String} {bytes rest : List UInt8} {value : UInt32}
    (h : takeWord field bytes = .ok (value, rest)) : bytes = Word.bigEndian value ++ rest := by
  match bytes, h with
  | b₃ :: b₂ :: b₁ :: b₀ :: tail, h =>
    simp only [takeWord, Except.ok.injEq, Prod.mk.injEq] at h
    obtain ⟨rfl, rfl⟩ := h
    rw [Word.bigEndian_ofBytes]
    rfl

lemma takeBytes_append (field : String) (data rest : List UInt8) :
    takeBytes field data.length (data ++ rest) = .ok (data, rest) := by
  rw [takeBytes, if_neg (by simp)]
  simp

lemma takeBytes_eq_ok {field : String} {n : Nat} {bytes data rest : List UInt8}
    (h : takeBytes field n bytes = .ok (data, rest)) : bytes = data ++ rest ∧ data.length = n := by
  simp only [takeBytes] at h
  split at h
  · cases h
  · next hlength =>
    simp only [Except.ok.injEq, Prod.mk.injEq] at h
    obtain ⟨rfl, rfl⟩ := h
    refine ⟨(List.take_append_drop n bytes).symm, ?_⟩
    rw [List.length_take]
    omega

lemma words_append (values more : List UInt32) :
    words (values ++ more) = words values ++ words more :=
  List.flatMap_append ..

lemma words_singleton (value : UInt32) : words [value] = Word.bigEndian value := by
  rw [words, List.flatMap_cons, List.flatMap_nil, List.append_nil]

lemma takeWords_append (field : String) {n : Nat} (values : Vector UInt32 n) (rest : List UInt8) :
    takeWords field n (words values.toList ++ rest) = .ok (values, rest) := by
  induction n generalizing rest with
  | zero =>
    obtain rfl : values = #v[] := Vector.eq_empty
    rfl
  | succ n ih =>
    -- words are taken in order, so the last one is behind a shorter run
    obtain ⟨front, last, rfl⟩ :
        ∃ (front : Vector UInt32 n) (last : UInt32), values = front.push last :=
      ⟨values.pop, values.back, (Vector.push_pop_back values).symm⟩
    rw [Vector.toList_push, words_append, List.append_assoc, takeWords, ih, words_singleton]
    dsimp only [bind, Except.bind]
    rw [takeWord_append]
    rfl

lemma takeWords_eq_ok {field : String} {n : Nat} {bytes rest : List UInt8}
    {values : Vector UInt32 n} (h : takeWords field n bytes = .ok (values, rest)) :
    bytes = words values.toList ++ rest := by
  induction n generalizing rest with
  | zero =>
    obtain ⟨rfl, rfl⟩ := Prod.mk.inj (Except.ok.inj h)
    rfl
  | succ n ih =>
    obtain ⟨⟨front, r₁⟩, hfront, h⟩ := exists_of_bind h
    obtain ⟨⟨last, r₂⟩, hlast, h⟩ := exists_of_bind h
    obtain ⟨rfl, rfl⟩ := Prod.mk.inj (Except.ok.inj h)
    rw [ih hfront, takeWord_eq_ok hlast, Vector.toList_push, words_append, words_singleton,
      List.append_assoc]

@[simp] lemma length_count (n : Nat) : (count n).length = 4 := rfl

/-- A count that fits a word is read as it is. -/
lemma toNat_count {n : Nat} (h : n < 0x100000000) : (UInt32.ofNat n).toNat = n := by
  rw [UInt32.toNat_ofNat']
  exact Nat.mod_eq_of_lt h

/-! ### Names and symbols -/

lemma takeName_append {field name : String} (h : PlainText (some '\x00') name)
    (rest : List UInt8) :
    takeName field (Text.utf8 name ++ 0 :: rest) = .ok (name, rest) := by
  obtain ⟨bytes, hbytes, hascii, hexcluded⟩ := exists_codes_of_plainText h
  have hutf8 : Text.utf8 name = bytes := by rw [← hbytes, Text.utf8_ofCodes hascii]
  have hne : ∀ b ∈ bytes, (b != 0) = true := by
    intro b hb
    rw [bne_iff_ne]
    rintro rfl
    exact hexcluded 0 hb rfl
  have hdrop : (bytes ++ 0 :: rest).dropWhile (· != 0) = 0 :: rest := by
    rw [List.dropWhile_append_of_pos hne]
    rfl
  have htake : (bytes ++ 0 :: rest).takeWhile (· != 0) = bytes := by
    rw [List.takeWhile_append_of_pos hne]
    simp
  rw [takeName, hutf8, hdrop, htake, Text.ofAscii?, if_pos hascii, hbytes]

lemma takeName_eq_ok {field name : String} {bytes rest : List UInt8}
    (h : takeName field bytes = .ok (name, rest)) :
    bytes = Text.utf8 name ++ 0 :: rest ∧ PlainText (some '\x00') name := by
  simp only [takeName] at h
  split at h
  · cases h
  · next first tail hdrop =>
    split at h
    · next text htext =>
      obtain ⟨rfl, rfl⟩ := Prod.mk.inj (Except.ok.inj h)
      obtain ⟨hascii, rfl⟩ := Text.eq_ofCodes_of_ofAscii? htext
      have hfirst : first = 0 := by
        have hhead := List.head?_dropWhile_not (fun b : UInt8 => b != 0) bytes
        rw [hdrop] at hhead
        simpa using hhead
      have hwhole := List.takeWhile_append_dropWhile (p := (· != (0 : UInt8))) (l := bytes)
      rw [hdrop, hfirst] at hwhole
      refine ⟨?_, plainText_ofCodes_of_notMem 0 hascii ?_⟩
      · rw [Text.utf8_ofCodes hascii, hwhole]
      · intro hmem
        have hne := List.mem_takeWhile_imp (p := (· != (0 : UInt8))) hmem
        simp at hne
    · cases h

/-- Reading symbols goes on behind one that is there. -/
lemma asSymbols_of_entry {bytes rest rest' : List UInt8} {address : UInt32} {name : String}
    (hword : takeWord "symbol address" bytes = .ok (address, rest))
    (hname : takeName "symbol name" rest = .ok (name, rest')) :
    asSymbols bytes = (asSymbols rest').map ((address, name) :: ·) := by
  have hempty : bytes.isEmpty ≠ true := by
    intro hempty
    rw [List.isEmpty_iff.1 hempty] at hword
    cases hword
  rw [asSymbols, if_neg hempty]
  split
  · next e he =>
    rw [hword] at he
    cases he
  · next a r hword' =>
    obtain ⟨rfl, rfl⟩ := Prod.mk.inj (Except.ok.inj (hword.symm.trans hword'))
    split
    · next e he =>
      rw [hname] at he
      cases he
    · next n r' hname' =>
      obtain ⟨rfl, rfl⟩ := Prod.mk.inj (Except.ok.inj (hname.symm.trans hname'))
      cases asSymbols rest' with
      | error e => rfl
      | ok symbols => rfl

/-- Symbols are read from what they are written as. -/
lemma asSymbols_flatMap {symbols : List (UInt32 × String)}
    (h : ∀ symbol ∈ symbols, PlainText (some '\x00') symbol.2) :
    asSymbols (symbols.flatMap symbolEntry) = .ok symbols := by
  induction symbols with
  | nil =>
    rw [List.flatMap_nil, asSymbols]
    rfl
  | cons symbol rest ih =>
    obtain ⟨hsymbol, hrest⟩ := List.forall_mem_cons.1 h
    obtain ⟨address, name⟩ := symbol
    have hentry : symbolEntry (address, name) ++ rest.flatMap symbolEntry =
        Word.bigEndian address ++ (Text.utf8 name ++ 0 :: rest.flatMap symbolEntry) := by
      simp [symbolEntry]
    rw [List.flatMap_cons, hentry,
      asSymbols_of_entry (takeWord_append _ address _) (takeName_append hsymbol _), ih hrest]
    rfl

/-- What is read as symbols is what they are written as. -/
lemma asSymbols_eq_ok {bytes : List UInt8} {symbols : List (UInt32 × String)}
    (h : asSymbols bytes = .ok symbols) :
    symbols.flatMap symbolEntry = bytes ∧
      ∀ symbol ∈ symbols, PlainText (some '\x00') symbol.2 := by
  induction bytes using asSymbols.induct generalizing symbols with
  | case1 bytes hempty =>
    rw [asSymbols, if_pos hempty] at h
    obtain rfl := Except.ok.inj h
    exact ⟨(List.isEmpty_iff.1 hempty).symm, fun _ hmem => absurd hmem List.not_mem_nil⟩
  | case2 bytes hempty e hword =>
    rw [asSymbols, if_neg hempty] at h
    split at h
    · cases h
    · next hword' =>
      rw [hword] at hword'
      cases hword'
  | case3 bytes hempty address rest hword e hname =>
    rw [asSymbols, if_neg hempty] at h
    split at h
    · cases h
    · next hword' =>
      obtain ⟨rfl, rfl⟩ := Prod.mk.inj (Except.ok.inj (hword.symm.trans hword'))
      split at h
      · cases h
      · next hname' =>
        rw [hname] at hname'
        cases hname'
  | case4 bytes hempty address rest hword name rest' hname e hrest ih =>
    rw [asSymbols_of_entry hword hname, hrest] at h
    cases h
  | case5 bytes hempty address rest hword name rest' hname tail hrest ih =>
    rw [asSymbols_of_entry hword hname, hrest] at h
    obtain rfl := Except.ok.inj h
    obtain ⟨htail, hplain⟩ := ih hrest
    obtain ⟨rfl, hsymbol⟩ := takeName_eq_ok hname
    refine ⟨?_, List.forall_mem_cons.2 ⟨hsymbol, hplain⟩⟩
    rw [takeWord_eq_ok hword, List.flatMap_cons, htail]
    simp [symbolEntry]

/-! ### Views, counts and texts -/

lemma takeView_append (view : MemoryView) (rest : List UInt8) :
    takeView (words (viewFields view) ++ rest) = .ok (view, rest) := by
  change takeView (Word.bigEndian view.id ++ (Word.bigEndian view.start ++
    (Word.bigEndian view.size ++ (Word.bigEndian view.watchStart ++
      (Word.bigEndian view.watchSize ++ rest))))) = _
  simp only [takeView, bind, Except.bind, takeWord_append]
  rfl

lemma takeView_eq_ok {bytes rest : List UInt8} {view : MemoryView}
    (h : takeView bytes = .ok (view, rest)) : bytes = words (viewFields view) ++ rest := by
  obtain ⟨⟨id, r₁⟩, h₁, h⟩ := exists_of_bind h
  obtain ⟨⟨start, r₂⟩, h₂, h⟩ := exists_of_bind h
  obtain ⟨⟨size, r₃⟩, h₃, h⟩ := exists_of_bind h
  obtain ⟨⟨watchStart, r₄⟩, h₄, h⟩ := exists_of_bind h
  obtain ⟨⟨watchSize, r₅⟩, h₅, h⟩ := exists_of_bind h
  obtain ⟨rfl, rfl⟩ := Prod.mk.inj (Except.ok.inj h)
  rw [takeWord_eq_ok h₁, takeWord_eq_ok h₂, takeWord_eq_ok h₃, takeWord_eq_ok h₄,
    takeWord_eq_ok h₅]
  rfl

lemma takeByte_eq_ok {field : String} {bytes rest : List UInt8} {b : UInt8}
    (h : takeByte field bytes = .ok (b, rest)) : bytes = b :: rest := by
  match bytes, h with
  | first :: tail, h =>
    obtain ⟨rfl, rfl⟩ := Prod.mk.inj (Except.ok.inj h)
    rfl

lemma takeHalf_port (field : String) (port : UInt16) (rest : List UInt8) :
    takeHalf field (UInt8.ofNat (port.toNat / 256) :: UInt8.ofNat port.toNat :: rest) =
      .ok (port, rest) := by
  have hport := port.toNat_lt
  have hvalue : UInt16.ofNat ((UInt8.ofNat (port.toNat / 256)).toNat * 256 +
      (UInt8.ofNat port.toNat).toNat) = port := by
    rw [← UInt16.toNat_inj, UInt16.toNat_ofNat', UInt8.toNat_ofNat', UInt8.toNat_ofNat']
    omega
  rw [takeHalf, hvalue]

lemma takeHalf_eq_ok {field : String} {bytes rest : List UInt8} {value : UInt16}
    (h : takeHalf field bytes = .ok (value, rest)) :
    bytes = UInt8.ofNat (value.toNat / 256) :: UInt8.ofNat value.toNat :: rest := by
  match bytes, h with
  | b₁ :: b₀ :: tail, h =>
    obtain ⟨rfl, rfl⟩ := Prod.mk.inj (Except.ok.inj h)
    have h₁ := b₁.toNat_lt
    have h₀ := b₀.toNat_lt
    simp only [List.cons.injEq, and_true, ← UInt8.toNat_inj, UInt8.toNat_ofNat',
      UInt16.toNat_ofNat']
    omega

lemma checkCount_toNat (field : String) {n : Nat} (h : n < 0x100000000) :
    checkCount field (UInt32.ofNat n).toNat n = .ok () := by
  rw [checkCount, if_pos (toNat_count h).symm]

lemma eq_of_checkCount {field : String} {declared actual : Nat} {u : Unit}
    (h : checkCount field declared actual = .ok u) : actual = declared := by
  simp only [checkCount] at h
  split at h
  · assumption
  · cases h

lemma utf8_of_asText {field text : String} {bytes : List UInt8}
    (h : asText field bytes = .ok text) :
    Text.utf8 text = bytes ∧ PlainText none text := by
  simp only [asText] at h
  split at h
  · next htext =>
    obtain rfl := Except.ok.inj h
    obtain ⟨hascii, rfl⟩ := Text.eq_ofCodes_of_ofAscii? htext
    exact ⟨Text.utf8_ofCodes hascii, plainText_ofCodes hascii fun b _ => Option.some_ne_none _⟩
  · cases h

end Message
end RemoteDebugger
