/-
# Reading symbols byte by byte

Symbols are read with a cursor, a 32-bit address that may wrap around: the address of a symbol
at once, its name byte by byte, and the symbols are put behind those that were found before
(`SymbolTable.Cursor`).  In memory that has all 32-bit addresses this may go round for ever, but
where it ends it ends with what `SymbolTable.scan` gives (`SymbolTable.Cursor.Ends.scan_eq`).  It
ends in smaller memory (`SymbolTable.Cursor.ends_iff`), and over a well-formed table it ends with
the table (`SymbolTable.scan_of_table`).
-/
import Mathlib.Logic.Relation
import RemoteDebugger.Proofs.Symbol.Entries

namespace RemoteDebugger
namespace SymbolTable

open Memory

/-- How far symbols have been read. -/
structure Cursor where
  /-- Where the next read is. -/
  address : UInt32
  /-- The symbol whose name is being read, with what was read of it. -/
  pending : Option Entry := none
  /-- The symbols that were found. -/
  found : List (UInt32 × String) := []

namespace Cursor

/-- The symbols that were found once the name of one has been read. -/
def foundWith (c : Cursor) (e : Entry) : List (UInt32 × String) :=
  if e.isAscii then c.found ++ [e.symbol] else c.found

/-- One more read, or the end. -/
def next (memory : Memory) (limits : Limits) (c : Cursor) : Except Fault SymbolTable ⊕ Cursor :=
  match c.pending with
  | none =>
    if limits.symbols ≤ c.found.length then .inl (.ok (.ofPairs c.found))
    else match addressAt? memory c.address.toNat with
      | none => .inl (.ok (.ofPairs c.found))
      | some address =>
        if address = 0 then .inl (.ok (.ofPairs c.found))
        else .inr { c with address := c.address + 4, pending := some ⟨address, []⟩ }
  | some e =>
    match memory.byte? c.address.toNat with
    | none => .inl (.error (.outOfRange c.address 1))
    | some b =>
      if b = 0 then .inr { address := c.address + 1, found := c.foundWith e }
      else if limits.nameLength ≤ e.name.length then
        .inl (.error (.longName (c.address + 1) limits.nameLength))
      else
        .inr { c with address := c.address + 1, pending := some { e with name := e.name ++ [b] } }

/-- Reading goes on from a cursor and ends with a result. -/
inductive Ends (memory : Memory) (limits : Limits) : Cursor → Except Fault SymbolTable → Prop where
  /-- This is the end. -/
  | now {c : Cursor} {result : Except Fault SymbolTable} (h : c.next memory limits = .inl result) :
    Ends memory limits c result
  /-- The end comes later. -/
  | later {c next : Cursor} {result : Except Fault SymbolTable}
    (h : c.next memory limits = .inr next) (hnext : Ends memory limits next result) :
    Ends memory limits c result

variable {memory : Memory} {limits : Limits} {c c' : Cursor}
  {result other : Except Fault SymbolTable} {room : Nat} {start behind address : UInt32}
  {name read : List UInt8} {b : UInt8} {e : Entry} {entries : List Entry} {fault : Fault}
  {found : List (UInt32 × String)}

/-- There is one end at most. -/
lemma Ends.unique (h : Ends memory limits c result) (hother : Ends memory limits c other) :
    result = other := by
  induction h with
  | now h =>
    cases hother with
    | now hother => exact Sum.inl.inj (h.symm.trans hother)
    | later hother => cases h.symm.trans hother
  | later h _ ih =>
    cases hother with
    | now hother => cases h.symm.trans hother
    | later hother hrest =>
      obtain rfl := Sum.inr.inj (h.symm.trans hother)
      exact ih hrest

/-- Reading goes from a cursor to another, in any number of reads. -/
def GoesTo (memory : Memory) (limits : Limits) : Cursor → Cursor → Prop :=
  Relation.ReflTransGen fun c next => c.next memory limits = .inr next

lemma GoesTo.head (h : c.next memory limits = .inr c') {c'' : Cursor}
    (hrest : GoesTo memory limits c' c'') : GoesTo memory limits c c'' :=
  Relation.ReflTransGen.head h hrest

lemma GoesTo.ends (h : GoesTo memory limits c c') (hends : Ends memory limits c' result) :
    Ends memory limits c result := by
  induction h using Relation.ReflTransGen.head_induction_on with
  | refl => exact hends
  | head hnext _ ih => exact .later hnext ih

/-! ### One read -/

lemma next_of_full (h : limits.symbols ≤ found.length) :
    next memory limits ⟨start, none, found⟩ = .inl (.ok (.ofPairs found)) :=
  if_pos h

lemma next_of_none (h : addressAt? memory start.toNat = none) :
    next memory limits ⟨start, none, found⟩ = .inl (.ok (.ofPairs found)) := by
  rw [next, h]
  exact ite_self _

lemma next_of_zero (h : addressAt? memory start.toNat = some 0) :
    next memory limits ⟨start, none, found⟩ = .inl (.ok (.ofPairs found)) := by
  rw [next, h]
  exact ite_self _

lemma next_of_address (hroom : found.length < limits.symbols)
    (h : addressAt? memory start.toNat = some address) (hne : address ≠ 0) :
    next memory limits ⟨start, none, found⟩ = .inr ⟨start + 4, some ⟨address, []⟩, found⟩ := by
  rw [next, h]
  exact (if_neg (Nat.not_le.2 hroom)).trans (if_neg hne)

lemma next_of_cut (h : memory.byte? start.toNat = none) :
    next memory limits ⟨start, some e, found⟩ = .inl (.error (.outOfRange start 1)) := by
  rw [next, h]

lemma next_of_nul (h : memory.byte? start.toNat = some 0) :
    next memory limits ⟨start, some e, found⟩ =
      .inr ⟨start + 1, none, found ++ symbolsOf [e]⟩ := by
  rw [next, h, symbolsOf_singleton]
  dsimp only
  rw [if_pos rfl, foundWith]
  split
  · rfl
  · rw [List.append_nil]

lemma next_of_long (h : memory.byte? start.toNat = some b) (hb : b ≠ 0)
    (hlong : limits.nameLength ≤ e.name.length) :
    next memory limits ⟨start, some e, found⟩ =
      .inl (.error (.longName (start + 1) limits.nameLength)) := by
  rw [next, h]
  exact (if_neg hb).trans (if_pos hlong)

lemma next_of_byte (h : memory.byte? start.toNat = some b) (hb : b ≠ 0)
    (hle : e.name.length < limits.nameLength) :
    next memory limits ⟨start, some e, found⟩ =
      .inr ⟨start + 1, some ⟨e.address, e.name ++ [b]⟩, found⟩ := by
  rw [next, h]
  exact (if_neg hb).trans (if_neg (Nat.not_le.2 hle))

/-! ### What reading comes to -/

/-- The symbols that were found before an address, and those from there on. -/
def resume (memory : Memory) (limits : Limits) (found : List (UInt32 × String)) (start : UInt32) :
    Except Fault SymbolTable :=
  (scanFrom memory limits.nameLength (limits.symbols - found.length) start).map fun more =>
    .ofPairs (found ++ more)

/-- The same when the name of an entry is being read, of which the entry has what was read. -/
def resumeName (memory : Memory) (limits : Limits) (found : List (UInt32 × String)) (e : Entry)
    (start : UInt32) : Except Fault SymbolTable :=
  match readName memory limits.nameLength (limits.nameLength - e.name.length) start
      e.name.reverse with
  | .error fault => .error fault
  | .ok (name, behind) => resume memory limits (found ++ symbolsOf [⟨e.address, name⟩]) behind

/-- What reading comes to from a cursor on, if it ends. -/
def outcome (memory : Memory) (limits : Limits) (c : Cursor) : Except Fault SymbolTable :=
  match c.pending with
  | none => resume memory limits c.found c.address
  | some e => resumeName memory limits c.found e c.address

lemma resume_of_full (h : limits.symbols ≤ found.length) :
    resume memory limits found start = .ok (.ofPairs found) := by
  rw [resume, Nat.sub_eq_zero_of_le h, scanFrom_zero]
  exact congrArg (Except.ok ∘ Directory.ofPairs) (List.append_nil found)

lemma resume_of_none (h : readEntry memory limits.nameLength start = .ok none) :
    resume memory limits found start = .ok (.ofPairs found) := by
  rw [resume, scanFrom_of_none h]
  exact congrArg (Except.ok ∘ Directory.ofPairs) (List.append_nil found)

lemma resume_of_error (hroom : found.length < limits.symbols)
    (h : readEntry memory limits.nameLength start = .error fault) :
    resume memory limits found start = .error fault := by
  obtain ⟨room, hroom⟩ : ∃ room, limits.symbols - found.length = room + 1 :=
    ⟨limits.symbols - found.length - 1, by omega⟩
  rw [resume, hroom, scanFrom_succ_of_error h]
  rfl

lemma resume_of_some (hroom : found.length < limits.symbols)
    (h : readEntry memory limits.nameLength start = .ok (some (e, behind))) :
    resume memory limits found start = resume memory limits (found ++ symbolsOf [e]) behind := by
  rw [resume, resume, scanFrom_of_readEntry (Nat.sub_pos_of_lt hroom) h, List.length_append,
    Nat.sub_sub]
  simp only [List.append_assoc]
  cases scanFrom memory limits.nameLength
    (limits.symbols - (found.length + (symbolsOf [e]).length)) behind <;> rfl

lemma resumeName_of_readName (e : Entry) (h : readName memory limits.nameLength
      (limits.nameLength - e.name.length) start e.name.reverse = .ok (name, behind)) :
    resumeName memory limits found e start =
      resume memory limits (found ++ symbolsOf [⟨e.address, name⟩]) behind := by
  rw [resumeName, h]

lemma resumeName_of_error (e : Entry) (h : readName memory limits.nameLength
      (limits.nameLength - e.name.length) start e.name.reverse = .error fault) :
    resumeName memory limits found e start = .error fault := by
  rw [resumeName, h]

/-- Where there is an address, reading goes on with the name. -/
lemma resume_of_address (hroom : found.length < limits.symbols)
    (haddress : addressAt? memory start.toNat = some address) (hne : address ≠ 0) :
    resume memory limits found start =
      resumeName memory limits found ⟨address, []⟩ (start + 4) := by
  cases hname : readName memory limits.nameLength limits.nameLength (start + 4) [] with
  | error fault =>
    rw [resume_of_error hroom (readEntry_of_error haddress hne hname)]
    exact (resumeName_of_error ⟨address, []⟩ hname).symm
  | ok named =>
    obtain ⟨name, behind⟩ := named
    rw [resume_of_some hroom (readEntry_of_readName haddress hne hname)]
    exact (resumeName_of_readName ⟨address, []⟩ hname).symm

lemma resumeName_of_cut (h : memory.byte? start.toNat = none) :
    resumeName memory limits found e start = .error (.outOfRange start 1) :=
  resumeName_of_error e (readName_of_none h)

lemma resumeName_of_nul (h : memory.byte? start.toNat = some 0) :
    resumeName memory limits found e start =
      resume memory limits (found ++ symbolsOf [e]) (start + 1) := by
  rw [resumeName, readName_of_zero h, List.reverse_reverse]

lemma resumeName_of_long (h : memory.byte? start.toNat = some b) (hb : b ≠ 0)
    (hlong : limits.nameLength ≤ e.name.length) :
    resumeName memory limits found e start =
      .error (.longName (start + 1) limits.nameLength) := by
  refine resumeName_of_error e ?_
  rw [Nat.sub_eq_zero_of_le hlong, readName_zero_of_ne h hb]

lemma resumeName_of_byte (h : memory.byte? start.toNat = some b) (hb : b ≠ 0)
    (hle : e.name.length < limits.nameLength) :
    resumeName memory limits found e start =
      resumeName memory limits found ⟨e.address, e.name ++ [b]⟩ (start + 1) := by
  obtain ⟨room, hroom⟩ : ∃ room, limits.nameLength - e.name.length = room + 1 :=
    ⟨limits.nameLength - e.name.length - 1, by omega⟩
  rw [resumeName, resumeName, hroom, readName_succ_of_ne h hb, List.length_append,
    List.length_singleton, Nat.sub_add_eq, hroom, List.reverse_append]
  rfl

/-- A read that is not the last does not change what reading comes to, and the last gives it. -/
lemma outcome_of_next (memory : Memory) (limits : Limits) (c : Cursor) :
    (c.next memory limits).elim (outcome memory limits c = ·)
      (outcome memory limits c = outcome memory limits ·) := by
  obtain ⟨start, pending, found⟩ := c
  cases pending with
  | none =>
    by_cases hroom : found.length < limits.symbols
    · cases haddress : addressAt? memory start.toNat with
      | none =>
        rw [next_of_none haddress]
        exact resume_of_none (readEntry_of_none haddress)
      | some address =>
        by_cases hne : address = 0
        · subst hne
          rw [next_of_zero haddress]
          exact resume_of_none (readEntry_of_zero haddress)
        · rw [next_of_address hroom haddress hne]
          exact resume_of_address hroom haddress hne
    · rw [next_of_full (Nat.le_of_not_lt hroom)]
      exact resume_of_full (Nat.le_of_not_lt hroom)
  | some e =>
    cases hbyte : memory.byte? start.toNat with
    | none =>
      rw [next_of_cut hbyte]
      exact resumeName_of_cut hbyte
    | some b =>
      by_cases hb : b = 0
      · subst hb
        rw [next_of_nul hbyte]
        exact resumeName_of_nul hbyte
      · by_cases hlong : limits.nameLength ≤ e.name.length
        · rw [next_of_long hbyte hb hlong]
          exact resumeName_of_long hbyte hb hlong
        · rw [next_of_byte hbyte hb (Nat.lt_of_not_le hlong)]
          exact resumeName_of_byte hbyte hb (Nat.lt_of_not_le hlong)

/-- Where reading ends, it ends with what it comes to. -/
lemma Ends.outcome_eq (h : Ends memory limits c result) : outcome memory limits c = result := by
  induction h with
  | @now c result h =>
    have hlast := outcome_of_next memory limits c
    rwa [h] at hlast
  | @later c next result h _ ih =>
    have hnext := outcome_of_next memory limits c
    rw [h] at hnext
    exact Eq.trans hnext ih

/-- Where reading the symbols ends, `scan` gives what it ends with. -/
theorem Ends.scan_eq (h : Ends memory limits { address := address } result) :
    scan memory address limits = result := by
  rw [scan]
  exact h.outcome_eq

/-! ### Entries one by one -/

lemma goesTo_of_readName {e : Entry}
    (h : readName memory limits.nameLength room start read = .ok (name, behind))
    (hread : read = e.name.reverse) (hroom : e.name.length + room = limits.nameLength) :
    GoesTo memory limits ⟨start, some e, found⟩
      ⟨behind, none, found ++ symbolsOf [⟨e.address, name⟩]⟩ := by
  fun_induction readName memory limits.nameLength room start read generalizing e with
  | case1 => cases h
  | case2 room start read hbyte =>
    obtain ⟨rfl, rfl⟩ := Prod.mk.inj (Except.ok.inj h)
    rw [hread, List.reverse_reverse]
    exact .single (next_of_nul hbyte)
  | case3 => cases h
  | case4 start read b hbyte hb room ih =>
    refine .head (next_of_byte hbyte hb (by omega)) (ih h ?_ ?_)
    · rw [hread, List.reverse_append]
      rfl
    · rw [List.length_append, List.length_singleton]
      omega

/-- Reading goes over an entry. -/
lemma goesTo_of_readEntry (hroom : found.length < limits.symbols)
    (h : readEntry memory limits.nameLength start = .ok (some (e, behind))) :
    GoesTo memory limits ⟨start, none, found⟩ ⟨behind, none, found ++ symbolsOf [e]⟩ := by
  obtain ⟨haddress, hne, hname⟩ := readEntry_eq_some_iff.1 h
  exact .head (next_of_address hroom haddress hne)
    (goesTo_of_readName hname rfl (Nat.zero_add _))

lemma ends_of_readName_error {e : Entry}
    (h : readName memory limits.nameLength room start read = .error fault)
    (hroom : e.name.length + room = limits.nameLength) :
    Ends memory limits ⟨start, some e, found⟩ (.error fault) := by
  fun_induction readName memory limits.nameLength room start read generalizing e with
  | case1 room start read hbyte =>
    obtain rfl := Except.error.inj h
    exact .now (next_of_cut hbyte)
  | case2 => cases h
  | case3 start read b hbyte hb =>
    obtain rfl := Except.error.inj h
    exact .now (next_of_long hbyte hb (by omega))
  | case4 start read b hbyte hb room ih =>
    refine .later (next_of_byte hbyte hb (by omega)) (ih h ?_)
    rw [List.length_append, List.length_singleton]
    omega

/-- Reading fails at an entry that cannot be read. -/
lemma ends_of_readEntry_error (hroom : found.length < limits.symbols)
    (h : readEntry memory limits.nameLength start = .error fault) :
    Ends memory limits ⟨start, none, found⟩ (.error fault) := by
  obtain ⟨address, haddress, hne, hname⟩ := readEntry_eq_error_iff.1 h
  exact .later (next_of_address hroom haddress hne)
    (ends_of_readName_error hname (Nat.zero_add _))

/-- Where there are no more symbols reading ends. -/
lemma ends_of_readEntry_none (h : readEntry memory limits.nameLength start = .ok none) :
    Ends memory limits ⟨start, none, found⟩ (.ok (.ofPairs found)) := by
  rcases readEntry_eq_none_iff.1 h with hnone | hzero
  · exact .now (next_of_none hnone)
  · exact .now (next_of_zero hzero)

/-- Reading goes over entries and ends where it ends from behind them, with their symbols, as
many as there is room for. -/
lemma Ends.of_chain (hchain : Chain memory limits.nameLength start entries)
    (h : Ends memory limits ⟨start + UInt32.ofNat (bytesOf entries).length, none,
      found ++ (symbolsOf entries).take (limits.symbols - found.length)⟩ result) :
    Ends memory limits ⟨start, none, found⟩ result := by
  induction entries generalizing start found with
  | nil =>
    rwa [behind_nil, show symbolsOf [] = [] from rfl, List.take_nil, List.append_nil] at h
  | cons e rest ih =>
    obtain ⟨⟨hlies, he⟩, hrest⟩ := chain_cons_iff.1 hchain
    by_cases hroom : found.length < limits.symbols
    · have hone := length_symbolsOf_singleton_le e
      refine (goesTo_of_readEntry hroom (readEntry_of_liesAt hlies he)).ends (ih hrest ?_)
      rw [behind_cons, symbolsOf_cons, List.take_append, List.take_of_length_le (by omega),
        ← List.append_assoc] at h
      rwa [List.length_append, Nat.sub_add_eq]
    · -- there is room for none of them, and reading ends at once, here and behind them
      have hfull := Nat.le_of_not_lt hroom
      rw [Nat.sub_eq_zero_of_le hfull, List.take_zero, List.append_nil] at h
      obtain rfl := h.unique (.now (next_of_full hfull))
      exact .now (next_of_full hfull)

/-- In memory that 32 bits address reading ends. -/
lemma exists_ends (hsize : memory.size < UInt32.size) (limits : Limits) (start : UInt32)
    (found : List (UInt32 × String)) :
    ∃ result, Ends memory limits ⟨start, none, found⟩ result := by
  -- By induction on how much memory is left: an entry takes some of it.
  induction hleft : memory.size - start.toNat using Nat.strongRecOn generalizing start found with
  | ind left ih =>
    by_cases hroom : found.length < limits.symbols
    · cases hread : readEntry memory limits.nameLength start with
      | error fault => exact ⟨_, ends_of_readEntry_error hroom hread⟩
      | ok found' =>
        cases found' with
        | none => exact ⟨_, ends_of_readEntry_none hread⟩
        | some entry =>
          obtain ⟨e, behind⟩ := entry
          obtain ⟨⟨hlies, -⟩, rfl⟩ := liesAt_of_readEntry hread
          have hholds := hlies.holds hsize
          have hle := hholds.length_le (by simp [Entry.bytes])
          have hlength := length_bytes e
          obtain ⟨result, hends⟩ := ih _ (by rw [hholds.toNat_behind hsize]; omega)
            (start + UInt32.ofNat e.bytes.length) (found ++ symbolsOf [e]) rfl
          exact ⟨result, (goesTo_of_readEntry hroom hread).ends hends⟩
    · exact ⟨_, .now (next_of_full (Nat.le_of_not_lt hroom))⟩

/-- Reading memory that 32 bits address ends, and gives what the symbols in memory are. -/
theorem ends_iff (hsize : memory.size < UInt32.size) (address : UInt32) (limits : Limits)
    (result : Except Fault SymbolTable) :
    Ends memory limits { address := address } result ↔ scan memory address limits = result := by
  constructor
  · exact Ends.scan_eq
  · rintro rfl
    obtain ⟨result, hends⟩ := exists_ends hsize limits address []
    rwa [hends.scan_eq]

end Cursor

/-- A well-formed table that ends with an address of zero, or with memory, is read back: reading
it ends, and gives the first symbols with ASCII names, as many as there may be. -/
theorem scan_of_table {memory : Memory} {address : UInt32} {limits : Limits} {entries : List Entry}
    (hsize : memory.size < UInt32.size)
    (htable : Entries memory limits.nameLength address.toNat entries)
    (hend : memory.Holds (address.toNat + (bytesOf entries).length) [0, 0, 0, 0] ∨
      memory.size < address.toNat + (bytesOf entries).length + 4) :
    scan memory address limits = .ok (.ofPairs ((symbolsOf entries).take limits.symbols)) ∧
      ∀ result, Cursor.Ends memory limits { address := address } result ↔
        result = .ok (.ofPairs ((symbolsOf entries).take limits.symbols)) := by
  have hchain := htable.chain hsize
  rw [UInt32.ofNat_toNat] at hchain
  -- the entries end where no entry can be read
  have hnone : readEntry memory limits.nameLength
      (address + UInt32.ofNat (bytesOf entries).length) = .ok none := by
    refine readEntry_eq_none_iff.2 ?_
    rw [htable.holds.toNat_behind hsize]
    exact hend.symm.imp addressAt?_eq_none_iff.2 addressAt?_eq_some_iff.2
  have hends : Cursor.Ends memory limits { address := address }
      (.ok (.ofPairs ((symbolsOf entries).take limits.symbols))) :=
    .of_chain hchain (Cursor.ends_of_readEntry_none hnone)
  refine ⟨hends.scan_eq, fun result => ⟨fun h => h.unique hends, ?_⟩⟩
  rintro rfl
  exact hends

/-- A name that is not ASCII takes no room; the two symbols around it are all there may be. -/
theorem scan_of_table_around_other_name :
    let memory : Memory :=
      { bytes := ⟨#[0xff, 0, 0, 0, 16, 0x61, 0, 0, 0, 0, 32, 0xc3, 0xa9, 0, 0, 0, 0, 48, 0x62, 0, 0,
        0, 0, 64, 0x63, 0, 0, 0]⟩ }
    let limits : Limits := { symbols := 2, nameLength := 2 }
    scan memory 1 limits = .ok (.ofPairs [(16, "a"), (48, "b")]) ∧
      ∀ result, Cursor.Ends memory limits { address := 1 } result ↔
        result = .ok (.ofPairs [(16, "a"), (48, "b")]) := by
  intro memory limits
  let entries : List Entry := [⟨16, [0x61]⟩, ⟨32, [0xc3, 0xa9]⟩, ⟨48, [0x62]⟩, ⟨64, [0x63]⟩]
  have htable : Entries memory limits.nameLength (1 : UInt32).toNat entries := by
    refine ⟨by decide +kernel, ?_⟩
    simp only [entries, List.forall_mem_cons]
    exact ⟨⟨by decide, by decide, by decide⟩, ⟨by decide, by decide, by decide⟩,
      ⟨by decide, by decide, by decide⟩, ⟨by decide, by decide, by decide⟩,
      fun _ he => absurd he List.not_mem_nil⟩
  have hsize : memory.size < UInt32.size := by decide +kernel
  have hend : memory.size < (1 : UInt32).toNat + (bytesOf entries).length + 4 := by decide +kernel
  exact scan_of_table hsize htable (.inr hend)

end SymbolTable
end RemoteDebugger
