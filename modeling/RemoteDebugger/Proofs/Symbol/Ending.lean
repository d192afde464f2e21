/-
# Where symbols come to an end

Behind the last entry that is there whole the symbols come to an end in one of four ways: there
is an address of zero, memory ends where an address would be, memory ends within a name, or a
name is too long.  In the first two ways what was read is kept.  It is lost in the other two, so
that an end of memory is treated in two ways, and the entries before it are kept if and only if
it does not fall into a name (`SymbolTable.keepsEntries_iff`).
-/
import RemoteDebugger.Proofs.Symbol.Cursor

namespace RemoteDebugger
namespace SymbolTable

open Memory

/-! ### Ends -/

/-- Memory ends where the address of a symbol would be. -/
def EndsAtAddress (memory : Memory) (position : UInt32) : Prop :=
  memory.size < position.toNat + 4

/-- Memory ends within the name of a symbol, before or behind its first byte, and before the
name is too long. -/
def EndsInName (memory : Memory) (limit : Nat) (position : UInt32) : Prop :=
  ∃ (address : UInt32) (name : List UInt8), address ≠ 0 ∧
    memory.Holds position.toNat (Word.bigEndian address) ∧ memory.Carries (position + 4) name ∧
      0 ∉ name ∧ name.length ≤ limit ∧
        memory.size ≤ (position + 4 + UInt32.ofNat name.length).toNat

/-- The name of a symbol is too long. -/
def LongName (memory : Memory) (limit : Nat) (position : UInt32) : Prop :=
  ∃ (address : UInt32) (name : List UInt8), address ≠ 0 ∧
    memory.Holds position.toNat (Word.bigEndian address) ∧ memory.Carries (position + 4) name ∧
      0 ∉ name ∧ name.length = limit + 1

/-- Reading has come to a position over some entries, and there is room for more symbols. -/
structure Reaches (memory : Memory) (address : UInt32) (limits : Limits) (entries : List Entry)
    (position : UInt32) : Prop where
  /-- The entries are in memory. -/
  held : Chain memory limits.nameLength address entries
  /-- There is room for more symbols. -/
  room : (symbolsOf entries).length < limits.symbols
  /-- The position is behind the entries. -/
  position_eq : position = address + UInt32.ofNat (bytesOf entries).length

/-- What is there whole is kept: where memory ends, reading ends, and the symbols are those of
the entries before; and nothing but a name that is too long makes reading fail. -/
structure KeepsEntries (memory : Memory) (address : UInt32) (limits : Limits) : Prop where
  /-- The end of memory ends the symbols. -/
  of_end (entries : List Entry) (position : UInt32)
    (h : Reaches memory address limits entries position)
    (hend : EndsAtAddress memory position ∨ EndsInName memory limits.nameLength position) :
    scan memory address limits = .ok (.ofPairs (symbolsOf entries)) ∧
      ∀ result, Cursor.Ends memory limits { address := address } result ↔
        result = .ok (.ofPairs (symbolsOf entries))
  /-- A failure is due to a name that is too long. -/
  of_error (fault : Fault) (h : scan memory address limits = .error fault) :
    ∃ entries position, Reaches memory address limits entries position ∧
      LongName memory limits.nameLength position ∧
        fault = .longName (position + 4 + UInt32.ofNat limits.nameLength + 1) limits.nameLength

variable {memory : Memory} {address start position : UInt32} {limits : Limits}
  {limit room tries : Nat} {entries : List Entry} {fault : Fault}
  {result : Except Fault SymbolTable}

/-! ### What is read at an end -/

lemma readEntry_of_endsAtAddress (h : EndsAtAddress memory position) :
    readEntry memory limit position = .ok none :=
  readEntry_of_none (addressAt?_eq_none_iff.2 h)

lemma exists_of_endsInName (h : EndsInName memory limit position) :
    ∃ fault, readEntry memory limit position = .error fault := by
  obtain ⟨address, name, hne, haddress, hname, hnul, hle, hend⟩ := h
  exact ⟨_, readEntry_of_error (addressAt?_eq_some_iff.2 haddress) hne
    (readName_of_cut hname hnul hle (byte?_eq_none_iff.2 hend))⟩

/-- No entry can be read where memory ends within a name, and where a name is too long. -/
lemma of_readEntry_eq_error (h : readEntry memory limit position = .error fault) :
    EndsInName memory limit position ∨
      LongName memory limit position ∧
        fault = .longName (position + 4 + UInt32.ofNat limit + 1) limit := by
  obtain ⟨address, haddress, hne, hread⟩ := readEntry_eq_error_iff.1 h
  have hword := addressAt?_eq_some_iff.1 haddress
  obtain ⟨name, hname, hnul, ⟨hle, hzero⟩ | ⟨hle, hnone⟩ | hlong⟩ :=
    exists_name memory limit (position + 4)
  · have hwhole : memory.Carries (position + 4) (name ++ [0]) :=
      carries_append_iff.2 ⟨hname, carries_singleton_iff.2 hzero⟩
    rw [readName_of_whole hwhole hnul hle] at hread
    cases hread
  · exact .inl ⟨address, name, hne, hword, hname, hnul, hle, byte?_eq_none_iff.1 hnone⟩
  · rw [readName_of_long hname hnul hlong] at hread
    exact .inr ⟨⟨address, name, hne, hword, hname, hnul, hlong⟩, (Except.error.inj hread).symm⟩

/-! ### The entries before an end -/

/-- Before what is found, and before what makes reading fail, there are entries without
symbols. -/
lemma exists_of_findSymbol {found : Except Fault (Option (Entry × UInt32))}
    (h : findSymbol memory limit tries start = found) (hne : found ≠ .ok none) :
    ∃ entries, Chain memory limit start entries ∧ symbolsOf entries = [] ∧
      readEntry memory limit (start + UInt32.ofNat (bytesOf entries).length) = found := by
  induction tries generalizing start with
  | zero => exact absurd h.symm hne
  | succ tries ih =>
    cases hskip : skip? memory limit start with
    | none =>
      rw [findSymbol_succ_of_none hskip] at h
      refine ⟨[], trivial, rfl, ?_⟩
      rwa [behind_nil]
    | some next =>
      rw [findSymbol_succ_of_skip hskip] at h
      obtain ⟨e, hentry, hascii⟩ := skip?_eq_some_iff.1 hskip
      obtain ⟨hlies, rfl⟩ := liesAt_of_readEntry hentry
      obtain ⟨rest, hrest, hnone, hbehind⟩ := ih h
      refine ⟨e :: rest, chain_cons_iff.2 ⟨hlies, hrest⟩, ?_, ?_⟩
      · rw [symbolsOf_cons, hnone, symbolsOf_singleton, if_neg hascii]
        rfl
      · rw [behind_cons, hbehind]

/-- Reading fails at an entry that cannot be read, behind entries that leave room for it. -/
lemma exists_of_scanFrom_eq_error (h : scanFrom memory limit room start = .error fault) :
    ∃ entries, Chain memory limit start entries ∧ (symbolsOf entries).length < room ∧
      readEntry memory limit (start + UInt32.ofNat (bytesOf entries).length) = .error fault := by
  induction room generalizing start with
  | zero => cases h
  | succ room ih =>
    rw [scanFrom] at h
    split at h
    · next fault' hfound =>
      obtain rfl := Except.error.inj h
      obtain ⟨entries, hentries, hnone, hread⟩ := exists_of_findSymbol hfound (by simp)
      refine ⟨entries, hentries, ?_, hread⟩
      rw [hnone]
      exact Nat.succ_pos room
    · cases h
    · next e next hfound =>
      obtain ⟨front, hfront, hnone, hread⟩ := exists_of_findSymbol hfound (by simp)
      obtain ⟨hlies, rfl⟩ := liesAt_of_readEntry hread
      cases hrest : scanFrom memory limit room _ with
      | ok rest =>
        rw [hrest] at h
        cases h
      | error fault' =>
        rw [hrest] at h
        obtain rfl := Except.error.inj h
        obtain ⟨back, hback, hroom, hend⟩ := ih hrest
        have hone := length_symbolsOf_singleton_le e
        refine ⟨front ++ e :: back,
          chain_append_iff.2 ⟨hfront, chain_cons_iff.2 ⟨hlies, hback⟩⟩, ?_, ?_⟩
        · rw [symbolsOf_append, hnone, List.nil_append, symbolsOf_cons, List.length_append]
          omega
        · rwa [behind_append, behind_cons]

/-! ### What becomes of the entries -/

/-- Where reading ends is decided behind the entries. -/
lemma Reaches.ends (h : Reaches memory address limits entries position)
    (hbehind : Cursor.Ends memory limits ⟨position, none, symbolsOf entries⟩ result) :
    Cursor.Ends memory limits { address := address } result := by
  refine .of_chain h.held ?_
  have htake : (symbolsOf entries).take (limits.symbols - 0) = symbolsOf entries :=
    List.take_of_length_le (Nat.le_of_lt h.room)
  rwa [List.length_nil, htake, List.nil_append, ← h.position_eq]

/-- Where memory ends at an address, what was read is kept. -/
lemma Reaches.ends_of_endsAtAddress (h : Reaches memory address limits entries position)
    (hend : EndsAtAddress memory position) :
    Cursor.Ends memory limits { address := address } (.ok (.ofPairs (symbolsOf entries))) :=
  h.ends (Cursor.ends_of_readEntry_none (readEntry_of_endsAtAddress hend))

/-- Where memory ends within a name, what was read is lost. -/
lemma Reaches.scan_of_endsInName (h : Reaches memory address limits entries position)
    (hend : EndsInName memory limits.nameLength position) :
    ∃ fault, scan memory address limits = .error fault := by
  obtain ⟨fault, hfault⟩ := exists_of_endsInName hend
  exact ⟨fault, (h.ends (Cursor.ends_of_readEntry_error h.room hfault)).scan_eq⟩

/-- Reading fails where memory ends within a name, or at a name that is too long. -/
lemma exists_of_scan_eq_error (h : scan memory address limits = .error fault) :
    ∃ entries position, Reaches memory address limits entries position ∧
      (EndsInName memory limits.nameLength position ∨
        LongName memory limits.nameLength position ∧
          fault =
            .longName (position + 4 + UInt32.ofNat limits.nameLength + 1) limits.nameLength) := by
  rw [scan] at h
  cases hfound : scanFrom memory limits.nameLength limits.symbols address with
  | ok symbols =>
    rw [hfound] at h
    cases h
  | error fault' =>
    rw [hfound] at h
    obtain rfl := Except.error.inj h
    obtain ⟨entries, hentries, hroom, hread⟩ := exists_of_scanFrom_eq_error hfound
    exact ⟨entries, _, ⟨hentries, hroom, rfl⟩, of_readEntry_eq_error hread⟩

/-- The entries before the end of memory are kept exactly if memory does not end within a
name. -/
theorem keepsEntries_iff (memory : Memory) (address : UInt32) (limits : Limits) :
    KeepsEntries memory address limits ↔
      ¬ ∃ entries position, Reaches memory address limits entries position ∧
        EndsInName memory limits.nameLength position := by
  constructor
  · rintro hkeeps ⟨entries, position, hreaches, hcut⟩
    obtain ⟨hok, -⟩ := hkeeps.of_end entries position hreaches (.inr hcut)
    obtain ⟨fault, hfault⟩ := hreaches.scan_of_endsInName hcut
    rw [hfault] at hok
    cases hok
  · intro hnone
    constructor
    · rintro entries position hreaches (hoff | hcut)
      · have hends := hreaches.ends_of_endsAtAddress hoff
        refine ⟨hends.scan_eq, fun result => ⟨fun h => h.unique hends, ?_⟩⟩
        rintro rfl
        exact hends
      · exact absurd ⟨entries, position, hreaches, hcut⟩ hnone
    · intro fault hfault
      obtain ⟨entries, position, hreaches, hcut | hlong⟩ := exists_of_scan_eq_error hfault
      · exact absurd ⟨entries, position, hreaches, hcut⟩ hnone
      · exact ⟨entries, position, hreaches, hlong⟩

/-- Memory ends within the second name, and the first symbol, which is there whole, is lost. -/
theorem entry_lost_before_cut_name :
    let memory : Memory := { bytes := ⟨#[0, 0, 0, 16, 0x61, 0, 0, 0, 0, 32, 0x62, 0x63]⟩ }
    let limits : Limits := { symbols := 16, nameLength := 32 }
    Reaches memory 0 limits [⟨16, [0x61]⟩] 6 ∧ EndsInName memory limits.nameLength 6 ∧
      scan memory 0 limits = .error (.outOfRange 12 1) ∧ ¬ KeepsEntries memory 0 limits := by
  intro memory limits
  have hreaches : Reaches memory 0 limits [⟨16, [0x61]⟩] 6 :=
    { held := ⟨⟨⟨by decide +kernel, by decide +kernel⟩, ⟨by decide, by decide, by decide⟩⟩, trivial⟩
      room := by decide +kernel
      position_eq := by decide +kernel }
  have hcut : EndsInName memory limits.nameLength 6 :=
    ⟨32, [0x62, 0x63], by decide, by decide +kernel, by decide +kernel, by decide, by decide,
      by decide +kernel⟩
  have hscan : scan memory 0 limits = .error (.outOfRange 12 1) := by decide +kernel
  refine ⟨hreaches, hcut, hscan, fun hkeeps => ?_⟩
  obtain ⟨hok, -⟩ := hkeeps.of_end _ _ hreaches (.inr hcut)
  rw [hscan] at hok
  cases hok

end SymbolTable
end RemoteDebugger
