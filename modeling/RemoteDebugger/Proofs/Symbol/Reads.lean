/-
# What of memory the symbols are read from

Reading the symbols goes through memory from an address on.  It looks at some of its bytes
(`SymbolTable.Reads`), and at no other: memory elsewhere has no say in what is read, or in why
nothing can be read (`SymbolTable.scan_congr`).
-/
import RemoteDebugger.Proofs.Symbol.Cursor

namespace RemoteDebugger
namespace SymbolTable

open Memory

namespace Cursor

/-- The next read looks at a position. -/
def LooksAt (limits : Limits) (c : Cursor) (i : Nat) : Prop :=
  match c.pending with
  | none => c.found.length < limits.symbols ∧ c.address.toNat ≤ i ∧ i < c.address.toNat + 4
  | some _ => i = c.address.toNat

/-- Two memories are the same wherever reading the first looks from a cursor on. -/
def Agree (memory other : Memory) (limits : Limits) (c : Cursor) : Prop :=
  ∀ c', GoesTo memory limits c c' → ∀ i, c'.LooksAt limits i → other.byte? i = memory.byte? i

end Cursor

/-- Reading the symbols from an address on looks at a position. -/
def Reads (memory : Memory) (address : UInt32) (limits : Limits) (i : Nat) : Prop :=
  ∃ c, Cursor.GoesTo memory limits { address := address } c ∧ c.LooksAt limits i

namespace Cursor

variable {memory other : Memory} {limits : Limits} {c c' : Cursor} {room tries i : Nat}
  {start behind address : UInt32} {read : List UInt8} {e : Entry}
  {found : List (UInt32 × String)}

lemma Agree.of_goesTo (h : Agree memory other limits c) (hgo : GoesTo memory limits c c') :
    Agree memory other limits c' :=
  fun c'' hgo' => h c'' (hgo.trans hgo')

/-! ### Reading memory that is the same there -/

lemma addressAt?_congr {position : Nat}
    (h : ∀ i, position ≤ i → i < position + 4 → other.byte? i = memory.byte? i) :
    addressAt? other position = addressAt? memory position := by
  refine Option.ext fun address => ?_
  rw [addressAt?_eq_some_iff, addressAt?_eq_some_iff]
  refine forall₂_congr fun i hi => ?_
  rw [Word.length_bigEndian] at hi
  rw [h (position + i) (by omega) (by omega)]

lemma readName_congr {e : Entry} (h : Agree memory other limits ⟨start, some e, found⟩)
    (hroom : e.name.length + room = limits.nameLength) :
    readName other limits.nameLength room start read =
      readName memory limits.nameLength room start read := by
  have hhere : other.byte? start.toNat = memory.byte? start.toNat := h _ .refl _ rfl
  fun_induction readName memory limits.nameLength room start read generalizing e with
  | case1 room start read hbyte => exact readName_of_none (hhere.trans hbyte)
  | case2 room start read hbyte => exact readName_of_zero (hhere.trans hbyte)
  | case3 start read b hbyte hb => exact readName_zero_of_ne (hhere.trans hbyte) hb
  | case4 start read b hbyte hb room ih =>
    have hnext := h.of_goesTo (.single (next_of_byte hbyte hb (by omega)))
    rw [readName_succ_of_ne (hhere.trans hbyte) hb]
    refine ih hnext ?_ (hnext _ .refl _ rfl)
    rw [List.length_append, List.length_singleton]
    omega

lemma readEntry_congr (h : Agree memory other limits ⟨start, none, found⟩)
    (hroom : found.length < limits.symbols) :
    readEntry other limits.nameLength start = readEntry memory limits.nameLength start := by
  have hhere : addressAt? other start.toNat = addressAt? memory start.toNat :=
    addressAt?_congr fun i hi hlt => h _ .refl i ⟨hroom, hi, hlt⟩
  cases haddress : addressAt? memory start.toNat with
  | none => rw [readEntry_of_none haddress, readEntry_of_none (hhere.trans haddress)]
  | some address =>
    by_cases hne : address = 0
    · subst hne
      rw [readEntry_of_zero haddress, readEntry_of_zero (hhere.trans haddress)]
    · have hnext := h.of_goesTo (.single (next_of_address hroom haddress hne))
      rw [readEntry, readEntry, hhere, readName_congr hnext (Nat.zero_add _)]

lemma findSymbol_congr (h : Agree memory other limits ⟨start, none, found⟩)
    (hroom : found.length < limits.symbols) (tries : Nat) :
    findSymbol other limits.nameLength tries start =
      findSymbol memory limits.nameLength tries start := by
  induction tries generalizing start with
  | zero => rfl
  | succ tries ih =>
    have hhere := readEntry_congr h hroom
    have hsame : skip? other limits.nameLength start = skip? memory limits.nameLength start := by
      rw [skip?, skip?, hhere]
    cases hskip : skip? memory limits.nameLength start with
    | none =>
      rw [findSymbol_succ_of_none hskip, findSymbol_succ_of_none (hsame.trans hskip), hhere]
    | some next =>
      obtain ⟨e, hentry, hascii⟩ := skip?_eq_some_iff.1 hskip
      have hnext := h.of_goesTo (goesTo_of_readEntry hroom hentry)
      rw [symbolsOf_singleton, if_neg hascii, List.append_nil] at hnext
      rw [findSymbol_succ_of_skip hskip, findSymbol_succ_of_skip (hsame.trans hskip), ih hnext]

/-- Reading goes to behind the symbol that is found. -/
lemma goesTo_of_findSymbol (hroom : found.length < limits.symbols)
    (h : findSymbol memory limits.nameLength tries start = .ok (some (e, behind))) :
    GoesTo memory limits ⟨start, none, found⟩ ⟨behind, none, found ++ [e.symbol]⟩ := by
  induction tries generalizing start with
  | zero => cases h
  | succ tries ih =>
    cases hskip : skip? memory limits.nameLength start with
    | none =>
      have hgo := goesTo_of_readEntry hroom ((findSymbol_succ_of_none hskip tries).symm.trans h)
      rwa [symbolsOf_singleton, if_pos (of_findSymbol h).1] at hgo
    | some next =>
      obtain ⟨skipped, hentry, hascii⟩ := skip?_eq_some_iff.1 hskip
      have hgo := goesTo_of_readEntry hroom hentry
      rw [symbolsOf_singleton, if_neg hascii, List.append_nil] at hgo
      exact hgo.trans (ih ((findSymbol_succ_of_skip hskip).symm.trans h))

lemma scanFrom_congr (h : Agree memory other limits ⟨start, none, found⟩)
    (hcount : found.length + room = limits.symbols) :
    scanFrom other limits.nameLength room start =
      scanFrom memory limits.nameLength room start := by
  induction room generalizing start found with
  | zero => rfl
  | succ room ih =>
    have hroom : found.length < limits.symbols := by omega
    rw [scanFrom, scanFrom, findSymbol_congr h hroom]
    split
    · rfl
    · rfl
    · next e next hfound =>
      rw [ih (h.of_goesTo (goesTo_of_findSymbol hroom hfound))]
      rw [List.length_append, List.length_singleton]
      omega

end Cursor

variable {memory other : Memory} {limits : Limits} {address : UInt32} {lower upper i : Nat}

/-- What symbols are read, or why they cannot be, depends on the bytes that reading looks at. -/
theorem scan_congr (h : ∀ i, Reads memory address limits i → other.byte? i = memory.byte? i) :
    scan other address limits = scan memory address limits := by
  have hagree : Cursor.Agree memory other limits { address := address } :=
    fun c hgo i hlooks => h i ⟨c, hgo, hlooks⟩
  rw [scan, scan, Cursor.scanFrom_congr hagree (Nat.zero_add _)]

/-! ### Where reading stays -/

namespace Cursor

/-- From a cursor on reading ends in fewer than so many reads, all at positions from `lower` up
to `upper`. -/
def staysWithin (memory : Memory) (limits : Limits) (lower upper : Nat) :
    (reads : Nat) → Cursor → Bool
  | 0, _ => false
  | reads + 1, c =>
    (lower ≤ c.address.toNat && c.address.toNat + 4 ≤ upper) &&
      match c.next memory limits with
      | .inl _ => true
      | .inr next => staysWithin memory limits lower upper reads next

lemma bounds_of_staysWithin {reads : Nat} {c c' : Cursor}
    (h : staysWithin memory limits lower upper reads c = true)
    (hgo : GoesTo memory limits c c') :
    lower ≤ c'.address.toNat ∧ c'.address.toNat + 4 ≤ upper := by
  induction reads generalizing c with
  | zero => cases h
  | succ reads ih =>
    rw [staysWithin, Bool.and_eq_true, Bool.and_eq_true, decide_eq_true_iff,
      decide_eq_true_iff] at h
    obtain ⟨hbounds, hrest⟩ := h
    rcases hgo.cases_head with rfl | ⟨next, hnext, hgo⟩
    · exact hbounds
    · rw [hnext] at hrest
      exact ih hrest hgo

end Cursor

/-- Reading that stays between two positions looks at none that is not between them. -/
lemma Reads.bounds {reads : Nat}
    (h : Cursor.staysWithin memory limits lower upper reads { address := address } = true)
    (hreads : Reads memory address limits i) : lower ≤ i ∧ i < upper := by
  obtain ⟨c, hgo, hlooks⟩ := hreads
  have hbounds := Cursor.bounds_of_staysWithin h hgo
  simp only [Cursor.LooksAt] at hlooks
  split at hlooks <;> omega

end SymbolTable
end RemoteDebugger
