/-
# Reading entries one behind another

Reading the symbols is reading the entry at an address, and going on behind it
(`SymbolTable.scanFrom_succ_of_some`).  Entries whose names are not ASCII are passed over, and no
more of them than there are addresses; this makes no difference, since who has passed over so
many passes over entries for ever (`SymbolTable.findSymbol_of_skip`).

A name that is read from memory ends at the first NUL and is ASCII: it is plain text without
a NUL in it.  Nothing else is known of it, so any other control character may be part of it.
-/
import Mathlib.Data.Fintype.Pigeonhole
import Mathlib.Logic.Function.Iterate
import RemoteDebugger.Proofs.Directory
import RemoteDebugger.Proofs.Machine.Bytes
import RemoteDebugger.Proofs.Wire.PlainText
import RemoteDebugger.Symbol.Scan

namespace RemoteDebugger

namespace SymbolTable

variable {memory : Memory} {limit room tries : Nat} {start next address : UInt32}
  {name read : List UInt8} {e : Entry} {fault : Fault}

/-! ### Names -/

lemma readName_of_none (h : memory.byte? start.toNat = none) :
    readName memory limit room start read = .error (.outOfRange start 1) := by
  rw [readName, h]

lemma readName_of_zero (h : memory.byte? start.toNat = some 0) :
    readName memory limit room start read = .ok (read.reverse, start + 1) := by
  rw [readName, h]
  exact if_pos rfl

lemma readName_zero_of_ne {b : UInt8} (h : memory.byte? start.toNat = some b) (hb : b ≠ 0) :
    readName memory limit 0 start read = .error (.longName (start + 1) limit) := by
  rw [readName, h]
  exact if_neg hb

lemma readName_succ_of_ne {b : UInt8} (h : memory.byte? start.toNat = some b) (hb : b ≠ 0) :
    readName memory limit (room + 1) start read =
      readName memory limit room (start + 1) (b :: read) := by
  rw [readName, h]
  exact if_neg hb

/-- There is no NUL before the end of a name. -/
lemma notMem_of_readName (h : readName memory limit room start read = .ok (name, next))
    (hread : 0 ∉ read) : 0 ∉ name := by
  fun_induction readName memory limit room start read with
  | case1 => cases h
  | case2 =>
    obtain ⟨rfl, -⟩ := Prod.mk.inj (Except.ok.inj h)
    rwa [List.mem_reverse]
  | case3 => cases h
  | case4 start read b hbyte hb room ih =>
    refine ih h ?_
    rw [List.mem_cons, not_or]
    exact ⟨Ne.symm hb, hread⟩

/-! ### Entries -/

lemma readEntry_of_none (h : addressAt? memory start.toNat = none) :
    readEntry memory limit start = .ok none := by
  rw [readEntry, h]

/-- An address of zero ends the symbols. -/
lemma readEntry_of_zero (h : addressAt? memory start.toNat = some 0) :
    readEntry memory limit start = .ok none := by
  rw [readEntry, h]
  exact if_pos rfl

lemma readEntry_of_readName (haddress : addressAt? memory start.toNat = some address)
    (hne : address ≠ 0) (hname : readName memory limit limit (start + 4) [] = .ok (name, next)) :
    readEntry memory limit start = .ok (some (⟨address, name⟩, next)) := by
  rw [readEntry, haddress]
  dsimp only
  rw [if_neg hne, hname]

/-- A symbol without the end of its name makes reading fail. -/
lemma readEntry_of_error (haddress : addressAt? memory start.toNat = some address)
    (hne : address ≠ 0) (hname : readName memory limit limit (start + 4) [] = .error fault) :
    readEntry memory limit start = .error fault := by
  rw [readEntry, haddress]
  dsimp only
  rw [if_neg hne, hname]

/-- An entry that is read has an address and a name. -/
lemma readEntry_eq_some_iff :
    readEntry memory limit start = .ok (some (e, next)) ↔
      addressAt? memory start.toNat = some e.address ∧ e.address ≠ 0 ∧
        readName memory limit limit (start + 4) [] = .ok (e.name, next) := by
  constructor
  · intro h
    rw [readEntry] at h
    split at h
    · cases h
    · next address haddress =>
      split at h
      · cases h
      · next hne =>
        split at h
        · cases h
        · next name behind hname =>
          obtain ⟨rfl, rfl⟩ := Prod.mk.inj (Option.some.inj (Except.ok.inj h))
          exact ⟨haddress, hne, hname⟩
  · rintro ⟨haddress, hne, hname⟩
    exact readEntry_of_readName haddress hne hname

/-- There is none where there is no address, and at an address of zero. -/
lemma readEntry_eq_none_iff :
    readEntry memory limit start = .ok none ↔
      addressAt? memory start.toNat = none ∨ addressAt? memory start.toNat = some 0 := by
  constructor
  · intro h
    rw [readEntry] at h
    split at h
    · next hnone => exact .inl hnone
    · next address haddress =>
      split at h
      · next hzero => exact .inr (hzero ▸ haddress)
      · split at h <;> cases h
  · rintro (hnone | hzero)
    · exact readEntry_of_none hnone
    · exact readEntry_of_zero hzero

/-- One that cannot be read has an address. -/
lemma readEntry_eq_error_iff :
    readEntry memory limit start = .error fault ↔
      ∃ address, addressAt? memory start.toNat = some address ∧ address ≠ 0 ∧
        readName memory limit limit (start + 4) [] = .error fault := by
  constructor
  · intro h
    rw [readEntry] at h
    split at h
    · cases h
    · next address haddress =>
      split at h
      · cases h
      · next hne =>
        split at h
        · next fault hname => exact ⟨address, haddress, hne, Except.error.inj h ▸ hname⟩
        · cases h
  · rintro ⟨address, haddress, hne, hname⟩
    exact readEntry_of_error haddress hne hname

/-! ### Entries that are passed over -/

/-- Who has gone on as many times as there are addresses goes on for ever. -/
lemma isSome_iterate {go : UInt32 → Option UInt32} {start : UInt32}
    (h : ((Option.bind · go)^[UInt32.size] (some start)).isSome = true) (n : Nat) :
    ((Option.bind · go)^[n] (some start)).isSome = true := by
  have hbefore (k : Nat) (hk : k ≤ UInt32.size) :
      ((Option.bind · go)^[k] (some start)).isSome = true := by
    by_contra hnone
    rw [Option.not_isSome_iff_eq_none] at hnone
    rw [← Nat.sub_add_cancel hk, Function.iterate_add_apply, hnone,
      Function.iterate_fixed (by rfl)] at h
    cases h
  -- one of the addresses comes twice
  obtain ⟨i, j, hne, heq⟩ := Fintype.exists_ne_map_eq_of_card_lt
    (fun k : Fin (UInt32.size + 1) =>
      (((Option.bind · go)^[k] (some start)).get (hbefore k (Nat.le_of_lt_succ k.2))).toFin)
    (by simp)
  have htwice : (Option.bind · go)^[i] (some start) = (Option.bind · go)^[j] (some start) :=
    Option.get_inj.1 (UInt32.toFin_inj.1 heq)
  obtain ⟨i, j, hlt, hj, htwice⟩ : ∃ i j : Nat, i < j ∧ j ≤ UInt32.size ∧
      (Option.bind · go)^[i] (some start) = (Option.bind · go)^[j] (some start) := by
    rcases Nat.lt_or_gt_of_ne (Fin.val_ne_of_ne hne) with hlt | hgt
    · exact ⟨i, j, hlt, Nat.le_of_lt_succ j.2, htwice⟩
    · exact ⟨j, i, hgt, Nat.le_of_lt_succ i.2, htwice.symm⟩
  -- and what comes behind it comes again and again
  induction n using Nat.strongRecOn with
  | ind n ih =>
    by_cases hn : n < j
    · exact hbefore n (by omega)
    · obtain ⟨k, rfl⟩ : ∃ k, n = k + j := ⟨n - j, by omega⟩
      rw [Function.iterate_add_apply, ← htwice, ← Function.iterate_add_apply]
      exact ih (k + i) (by omega)

/-- Where reading goes on if the entry at an address is passed over. -/
def skip? (memory : Memory) (limit : Nat) (start : UInt32) : Option UInt32 :=
  match readEntry memory limit start with
  | .ok (some (e, next)) => if e.isAscii then none else some next
  | _ => none

lemma skip?_eq_some_iff :
    skip? memory limit start = some next ↔
      ∃ e, readEntry memory limit start = .ok (some (e, next)) ∧ ¬ e.isAscii = true := by
  constructor
  · intro h
    rw [skip?] at h
    split at h
    · next e behind hentry =>
      split at h
      · cases h
      · next hascii => exact ⟨e, Option.some.inj h ▸ hentry, hascii⟩
    · cases h
  · rintro ⟨e, hentry, hascii⟩
    rw [skip?, hentry]
    exact if_neg hascii

lemma findSymbol_succ_of_skip (h : skip? memory limit start = some next) :
    findSymbol memory limit (tries + 1) start = findSymbol memory limit tries next := by
  obtain ⟨e, hentry, hascii⟩ := skip?_eq_some_iff.1 h
  rw [findSymbol, hentry]
  exact if_neg hascii

/-- Where nothing is passed over, what is found is what is there. -/
lemma findSymbol_succ_of_none (h : skip? memory limit start = none) (tries : Nat) :
    findSymbol memory limit (tries + 1) start = readEntry memory limit start := by
  rw [findSymbol]
  split
  · next hentry => exact hentry.symm
  · next hentry => exact hentry.symm
  · next e next hentry =>
    split
    · exact hentry.symm
    · next hascii =>
      rw [skip?_eq_some_iff.2 ⟨e, hentry, hascii⟩] at h
      cases h

/-- If one more try makes a difference, all before it were needed, and no more are. -/
lemma iterate_skip?_of_findSymbol_ne
    (h : findSymbol memory limit (tries + 1) start ≠ findSymbol memory limit tries start) :
    ((Option.bind · (skip? memory limit))^[tries] (some start)).isSome = true ∧
      (Option.bind · (skip? memory limit))^[tries + 1] (some start) = none := by
  induction tries generalizing start with
  | zero =>
    refine ⟨rfl, ?_⟩
    cases hskip : skip? memory limit start with
    | none => exact hskip
    | some next => exact absurd (findSymbol_succ_of_skip hskip) h
  | succ tries ih =>
    cases hskip : skip? memory limit start with
    | none =>
      rw [findSymbol_succ_of_none hskip (tries + 1), findSymbol_succ_of_none hskip tries] at h
      exact absurd rfl h
    | some next =>
      rw [findSymbol_succ_of_skip hskip, findSymbol_succ_of_skip hskip] at h
      have hnext : (some start).bind (skip? memory limit) = some next := hskip
      rw [Function.iterate_succ_apply, Function.iterate_succ_apply _ (tries + 1), hnext]
      exact ih h

/-- As many tries as there are addresses are enough, so that an entry that is passed over takes
none of them. -/
theorem findSymbol_of_skip (h : readEntry memory limit start = .ok (some (e, next)))
    (hascii : ¬ e.isAscii = true) :
    findSymbol memory limit UInt32.size start = findSymbol memory limit UInt32.size next := by
  have hskip := skip?_eq_some_iff.2 ⟨e, h, hascii⟩
  obtain ⟨tries, htries⟩ : ∃ tries, UInt32.size = tries + 1 := ⟨UInt32.size - 1, rfl⟩
  rw [htries, findSymbol_succ_of_skip hskip]
  by_contra hne
  obtain ⟨hmany, hnone⟩ := iterate_skip?_of_findSymbol_ne (Ne.symm hne)
  -- otherwise so many are passed over from the start, but not one more
  have hnext : (some start).bind (skip? memory limit) = some next := hskip
  rw [← hnext, ← Function.iterate_succ_apply] at hmany hnone
  rw [Nat.succ_eq_add_one, ← htries] at hmany
  have hsome := isSome_iterate hmany (tries + 2)
  rw [hnone] at hsome
  cases hsome

/-- What is found is what is there, if it is not passed over. -/
lemma findSymbol_of_readEntry
    (h : ∀ e next, readEntry memory limit start = .ok (some (e, next)) → e.isAscii = true) :
    findSymbol memory limit UInt32.size start = readEntry memory limit start := by
  have hskip : skip? memory limit start = none := by
    refine Option.eq_none_iff_forall_ne_some.2 fun next hskip => ?_
    obtain ⟨e, hentry, hascii⟩ := skip?_eq_some_iff.1 hskip
    exact hascii (h e next hentry)
  exact findSymbol_succ_of_none hskip (UInt32.size - 1)

/-! ### Symbols -/

lemma scanFrom_zero (memory : Memory) (limit : Nat) (start : UInt32) :
    scanFrom memory limit 0 start = .ok [] := rfl

/-- Where no entry can be read, the symbols are at an end. -/
lemma scanFrom_of_none (h : readEntry memory limit start = .ok none) :
    scanFrom memory limit room start = .ok [] := by
  cases room with
  | zero => rfl
  | succ room => rw [scanFrom, findSymbol_of_readEntry (by simp [h]), h]

lemma scanFrom_succ_of_error (h : readEntry memory limit start = .error fault) :
    scanFrom memory limit (room + 1) start = .error fault := by
  rw [scanFrom, findSymbol_of_readEntry (by simp [h]), h]

/-- Where there is an entry, reading goes on behind it. -/
theorem scanFrom_succ_of_some (h : readEntry memory limit start = .ok (some (e, next))) :
    scanFrom memory limit (room + 1) start =
      if e.isAscii = true then (scanFrom memory limit room next).map (e.symbol :: ·)
      else scanFrom memory limit (room + 1) next := by
  by_cases hascii : e.isAscii = true
  · rw [if_pos hascii, scanFrom, findSymbol_of_readEntry (by simp [h, hascii]), h]
  · rw [if_neg hascii, scanFrom, scanFrom, findSymbol_of_skip h hascii]

/-! ### Plain names -/

/-- Every name in a table is plain text without a NUL in it. -/
def Plain (symbols : SymbolTable) : Prop :=
  ∀ symbol ∈ symbols.entries, Message.PlainText (some '\x00') symbol.2

lemma Plain.nameAt? {symbols : SymbolTable} (h : symbols.Plain) {address : UInt32} {name : String}
    (hname : symbols.nameAt? address = some name) : Message.PlainText (some '\x00') name :=
  h (address, name) (Directory.mem_of_get? hname)

lemma Plain.lookup {symbols : SymbolTable} (h : symbols.Plain) {address distance : UInt32}
    {name : String} (hname : symbols.lookup address = (some name, distance)) :
    Message.PlainText (some '\x00') name := by
  simp only [SymbolTable.lookup] at hname
  split at hname
  · next start found hfloor =>
    obtain ⟨hfound, -⟩ := Prod.mk.inj hname
    obtain rfl := Option.some.inj hfound
    exact h (start, found) (Directory.mem_of_floor? hfloor)
  · cases hname

/-- An entry that is found has an ASCII name without a NUL in it. -/
lemma of_findSymbol (h : findSymbol memory limit tries start = .ok (some (e, next))) :
    e.isAscii = true ∧ 0 ∉ e.name := by
  induction tries generalizing start with
  | zero => cases h
  | succ tries ih =>
    rw [findSymbol] at h
    split at h
    · cases h
    · cases h
    · next found behind hentry =>
      split at h
      · next hascii =>
        obtain ⟨rfl, rfl⟩ := Prod.mk.inj (Option.some.inj (Except.ok.inj h))
        obtain ⟨-, -, hname⟩ := readEntry_eq_some_iff.1 hentry
        exact ⟨hascii, notMem_of_readName hname List.not_mem_nil⟩
      · exact ih h

lemma plain_scanFrom {symbols : List (UInt32 × String)}
    (h : scanFrom memory limit room start = .ok symbols) :
    ∀ symbol ∈ symbols, Message.PlainText (some '\x00') symbol.2 := by
  induction room generalizing start symbols with
  | zero =>
    obtain rfl := Except.ok.inj h
    exact List.forall_mem_nil _
  | succ room ih =>
    rw [scanFrom] at h
    split at h
    · cases h
    · obtain rfl := Except.ok.inj h
      exact List.forall_mem_nil _
    · next e next hfound =>
      cases hrest : scanFrom memory limit room next with
      | error fault =>
        rw [hrest] at h
        cases h
      | ok rest =>
        rw [hrest] at h
        obtain rfl := Except.ok.inj h
        obtain ⟨hascii, hnul⟩ := of_findSymbol hfound
        exact List.forall_mem_cons.2
          ⟨Message.plainText_ofCodes_of_notMem 0 hascii hnul, ih hrest⟩

/-- The names of the symbols in memory are plain text without a NUL. -/
theorem plain_of_scan {address : UInt32} {limits : Limits} {symbols : SymbolTable}
    (h : scan memory address limits = .ok symbols) : symbols.Plain := by
  rw [scan] at h
  cases hpairs : scanFrom memory limits.nameLength limits.symbols address with
  | error fault =>
    rw [hpairs] at h
    cases h
  | ok pairs =>
    rw [hpairs] at h
    obtain rfl := Except.ok.inj h
    intro symbol hsymbol
    exact plain_scanFrom hpairs symbol (Directory.mem_ofPairs hsymbol)

end SymbolTable
end RemoteDebugger
