/-
# Entries in memory

What a program leaves of its symbols is a sequence of *entries*: an address, most significant
byte first, a name, and a NUL.  Here is what it is that memory holds entries, without a word
about reading them: one behind another from a position on (`SymbolTable.Entries`), or from a
32-bit address on, with zero behind the greatest address (`SymbolTable.Chain`).  In memory that
32 bits address the first is the second (`SymbolTable.Entries.chain`).  What is read at an
address is the entry there (`SymbolTable.readEntry_of_liesAt`).
-/
import RemoteDebugger.Proofs.Symbol.Scan

namespace RemoteDebugger

namespace Memory

/-- Bytes lie in memory from a position on. -/
def Holds (memory : Memory) (position : Nat) (bytes : List UInt8) : Prop :=
  ∀ i < bytes.length, memory.byte? (position + i) = bytes[i]?

instance (memory : Memory) (position : Nat) (bytes : List UInt8) :
    Decidable (memory.Holds position bytes) :=
  inferInstanceAs (Decidable (∀ i < bytes.length, _))

variable {memory : Memory} {position : Nat} {bytes : List UInt8}

lemma holds_nil (memory : Memory) (position : Nat) : memory.Holds position [] :=
  fun i hi => absurd hi (Nat.not_lt_zero i)

/-- The bytes of a list are the values of a function if those of its front are, and those of its
back are the values behind. -/
lemma forall_getElem?_append_iff {byteAt : Nat → Option UInt8} {front back : List UInt8} :
    (∀ i < (front ++ back).length, byteAt i = (front ++ back)[i]?) ↔
      (∀ i < front.length, byteAt i = front[i]?) ∧
        ∀ i < back.length, byteAt (front.length + i) = back[i]? := by
  constructor
  · intro h
    refine ⟨fun i hi => ?_, fun i hi => ?_⟩
    · rw [h i (by rw [List.length_append]; omega), List.getElem?_append_left hi]
    · rw [h (front.length + i) (by rw [List.length_append]; omega),
        List.getElem?_append_right (by omega), Nat.add_sub_cancel_left]
  · rintro ⟨hfront, hback⟩ i hi
    rw [List.length_append] at hi
    by_cases hlt : i < front.length
    · rw [hfront i hlt, List.getElem?_append_left hlt]
    · have hshift := hback (i - front.length) (by omega)
      rw [Nat.add_sub_of_le (by omega)] at hshift
      rw [hshift, List.getElem?_append_right (by omega)]

lemma holds_append_iff {front back : List UInt8} :
    memory.Holds position (front ++ back) ↔
      memory.Holds position front ∧ memory.Holds (position + front.length) back := by
  simp only [Holds, Nat.add_assoc]
  exact forall_getElem?_append_iff

lemma holds_singleton_iff {b : UInt8} :
    memory.Holds position [b] ↔ memory.byte? position = some b := by
  constructor
  · intro h
    exact h 0 (by simp)
  · intro h i hi
    obtain rfl : i = 0 := by simpa using hi
    exact h

lemma holds_cons_iff {b : UInt8} :
    memory.Holds position (b :: bytes) ↔
      memory.byte? position = some b ∧ memory.Holds (position + 1) bytes := by
  rw [← List.singleton_append, holds_append_iff, holds_singleton_iff]
  rfl

lemma Holds.length_le (h : memory.Holds position bytes) (hne : bytes ≠ []) :
    position + bytes.length ≤ memory.size := by
  have hpos : 0 < bytes.length := List.length_pos_iff.2 hne
  have hlast := h (bytes.length - 1) (by omega)
  rw [List.getElem?_eq_getElem (by omega)] at hlast
  have := lt_size_of_byte? hlast
  omega

/-- Bytes lie in memory from an address on, and behind the greatest address comes zero. -/
def Carries (memory : Memory) (address : UInt32) (bytes : List UInt8) : Prop :=
  ∀ i < bytes.length, memory.byte? (address + UInt32.ofNat i).toNat = bytes[i]?

instance (memory : Memory) (address : UInt32) (bytes : List UInt8) :
    Decidable (memory.Carries address bytes) :=
  inferInstanceAs (Decidable (∀ i < bytes.length, _))

variable {address : UInt32}

lemma carries_nil (memory : Memory) (address : UInt32) : memory.Carries address [] :=
  fun i hi => absurd hi (Nat.not_lt_zero i)

lemma carries_append_iff {front back : List UInt8} :
    memory.Carries address (front ++ back) ↔
      memory.Carries address front ∧
        memory.Carries (address + UInt32.ofNat front.length) back := by
  simp only [Carries, UInt32.add_assoc, ← UInt32.ofNat_add]
  exact forall_getElem?_append_iff

lemma carries_singleton_iff {b : UInt8} :
    memory.Carries address [b] ↔ memory.byte? address.toNat = some b := by
  have hzero : address + UInt32.ofNat 0 = address := UInt32.add_zero address
  constructor
  · intro h
    rw [← hzero]
    exact h 0 (by simp)
  · intro h i hi
    obtain rfl : i = 0 := by simpa using hi
    rwa [hzero]

lemma carries_cons_iff {b : UInt8} :
    memory.Carries address (b :: bytes) ↔
      memory.byte? address.toNat = some b ∧ memory.Carries (address + 1) bytes := by
  rw [← List.singleton_append, carries_append_iff, carries_singleton_iff]
  rfl

/-- In memory that 32 bits address no bytes go on at zero. -/
lemma Holds.carries (h : memory.Holds position bytes) (hsize : memory.size < UInt32.size) :
    memory.Carries (UInt32.ofNat position) bytes := by
  intro i hi
  have hbyte := h i hi
  rw [List.getElem?_eq_getElem hi] at hbyte ⊢
  rw [← UInt32.ofNat_add, UInt32.toNat_ofNat_of_lt' (Nat.lt_trans (lt_size_of_byte? hbyte) hsize)]
  exact hbyte

lemma Holds.toNat_behind (h : memory.Holds address.toNat bytes)
    (hsize : memory.size < UInt32.size) :
    (address + UInt32.ofNat bytes.length).toNat = address.toNat + bytes.length := by
  have hlt : address.toNat + bytes.length < UInt32.size := by
    by_cases hnil : bytes = []
    · rw [hnil]
      exact address.toNat_lt
    · exact Nat.lt_of_le_of_lt (h.length_le hnil) hsize
  have hbehind := UInt32.toNat_ofNat_of_lt' hlt
  rwa [UInt32.ofNat_add, UInt32.ofNat_toNat] at hbehind

lemma Carries.holds (h : memory.Carries address bytes) (hsize : memory.size < UInt32.size) :
    memory.Holds address.toNat bytes := by
  induction bytes generalizing address with
  | nil => exact holds_nil _ _
  | cons b rest ih =>
    obtain ⟨hb, hrest⟩ := carries_cons_iff.1 h
    have hbehind : (address + 1).toNat = address.toNat + 1 :=
      (holds_singleton_iff.2 hb).toNat_behind hsize
    exact holds_cons_iff.2 ⟨hb, hbehind ▸ ih hrest⟩

end Memory

namespace SymbolTable

open Memory

variable {memory : Memory} {limit room position : Nat} {start next : UInt32}
  {name read : List UInt8}

/-! ### Addresses -/

lemma add_four_le_of_addressAt? {address : UInt32}
    (h : addressAt? memory position = some address) : position + 4 ≤ memory.size := by
  rw [addressAt?] at h
  split at h
  · next hle => exact hle
  · cases h

lemma addressAt?_eq_some_iff {address : UInt32} :
    addressAt? memory position = some address ↔ memory.Holds position (Word.bigEndian address) := by
  have hsize : memory.bytes.size = memory.size := rfl
  constructor
  · intro h
    have hle : position + 4 ≤ memory.bytes.size := add_four_le_of_addressAt? h
    rw [addressAt?, dif_pos hle] at h
    obtain rfl := Option.some.inj h
    rw [Word.bigEndian_ofBytes, holds_cons_iff, holds_cons_iff, holds_cons_iff,
      holds_singleton_iff]
    exact ⟨dif_pos _, dif_pos _, dif_pos _, dif_pos _⟩
  · intro h
    have hle : position + 4 ≤ memory.bytes.size := h.length_le (by simp [Word.bigEndian])
    simp only [Word.bigEndian, holds_cons_iff, byte?] at h
    obtain ⟨h₃, h₂, h₁, h₀, -⟩ := h
    rw [dif_pos (by omega)] at h₃ h₂ h₁ h₀
    rw [addressAt?, dif_pos hle]
    exact congrArg some (Word.ofBytes_eq (Option.some.inj h₃) (Option.some.inj h₂)
      (Option.some.inj h₁) (Option.some.inj h₀))

lemma addressAt?_eq_none_iff : addressAt? memory position = none ↔ memory.size < position + 4 := by
  have hsize : memory.bytes.size = memory.size := rfl
  rw [addressAt?]
  split
  · next hle => exact ⟨fun h => absurd h (by simp), fun h => absurd h (by omega)⟩
  · next hlt => exact ⟨fun _ => by omega, fun _ => rfl⟩

/-! ### Names -/

/-- Reading a name goes over bytes that are not NUL. -/
lemma readName_of_carries (h : memory.Carries start name) (hnul : 0 ∉ name)
    (hle : name.length ≤ room) :
    readName memory limit room start read =
      readName memory limit (room - name.length) (start + UInt32.ofNat name.length)
        (name.reverse ++ read) := by
  induction name generalizing room start read with
  | nil =>
    rw [show start + UInt32.ofNat [].length = start from UInt32.add_zero start]
    rfl
  | cons b rest ih =>
    obtain ⟨hb, hrest⟩ := carries_cons_iff.1 h
    rw [List.mem_cons, not_or] at hnul
    rw [List.length_cons] at hle ⊢
    obtain ⟨left, rfl⟩ : ∃ left, room = left + 1 := ⟨room - 1, by omega⟩
    rw [readName_succ_of_ne hb (Ne.symm hnul.1), ih hrest hnul.2 (by omega),
      Nat.add_sub_add_right, List.reverse_cons, List.append_assoc, List.singleton_append,
      Nat.add_comm, UInt32.ofNat_add, UInt32.add_assoc]
    rfl

/-- A name that is there whole ends at its NUL. -/
lemma readName_of_whole (h : memory.Carries start (name ++ [0])) (hnul : 0 ∉ name)
    (hle : name.length ≤ room) :
    readName memory limit room start [] = .ok (name, start + UInt32.ofNat name.length + 1) := by
  obtain ⟨hname, hend⟩ := carries_append_iff.1 h
  rw [readName_of_carries hname hnul hle, readName_of_zero (carries_singleton_iff.1 hend),
    List.append_nil, List.reverse_reverse]

/-- A name at whose end memory ends cannot be read. -/
lemma readName_of_cut (h : memory.Carries start name) (hnul : 0 ∉ name)
    (hle : name.length ≤ room)
    (hend : memory.byte? (start + UInt32.ofNat name.length).toNat = none) :
    readName memory limit room start read =
      .error (.outOfRange (start + UInt32.ofNat name.length) 1) := by
  rw [readName_of_carries h hnul hle, readName_of_none hend]

/-- Neither can a name that goes on when it has as many bytes as a name may have. -/
lemma readName_of_long (h : memory.Carries start name) (hnul : 0 ∉ name)
    (hlong : name.length = room + 1) :
    readName memory limit room start read =
      .error (.longName (start + UInt32.ofNat room + 1) limit) := by
  obtain rfl | ⟨front, b, rfl⟩ := List.eq_nil_or_concat name
  · cases hlong
  · rw [List.concat_eq_append] at h hnul hlong
    rw [List.length_append, List.length_singleton] at hlong
    obtain rfl : room = front.length := by omega
    rw [List.mem_append, not_or, List.mem_singleton] at hnul
    obtain ⟨hfront, hnext⟩ := carries_append_iff.1 h
    rw [readName_of_carries hfront hnul.1 (Nat.le_refl _), Nat.sub_self,
      readName_zero_of_ne (carries_singleton_iff.1 hnext) (Ne.symm hnul.2)]

/-- At every address there is a byte of a name, or a NUL, or no memory. -/
lemma byte?_cases (memory : Memory) (start : UInt32) :
    (∃ b ≠ 0, memory.byte? start.toNat = some b) ∨ memory.byte? start.toNat = some 0 ∨
      memory.byte? start.toNat = none := by
  cases hbyte : memory.byte? start.toNat with
  | none => exact .inr (.inr rfl)
  | some b =>
    by_cases hb : b = 0
    · exact .inr (.inl (congrArg some hb))
    · exact .inl ⟨b, hb, rfl⟩

/-- From every address on there is a name: it is there whole, memory ends with it, or it has
more bytes than a name may have. -/
lemma exists_name (memory : Memory) (room : Nat) (start : UInt32) :
    ∃ name : List UInt8, memory.Carries start name ∧ 0 ∉ name ∧
      (name.length ≤ room ∧ memory.byte? (start + UInt32.ofNat name.length).toNat = some 0 ∨
        name.length ≤ room ∧ memory.byte? (start + UInt32.ofNat name.length).toNat = none ∨
          name.length = room + 1) := by
  have hnil (start : UInt32) : start + UInt32.ofNat ([] : List UInt8).length = start :=
    UInt32.add_zero start
  induction room generalizing start with
  | zero =>
    rcases byte?_cases memory start with ⟨b, hb, hbyte⟩ | hend
    · exact ⟨[b], carries_singleton_iff.2 hbyte, by simpa using Ne.symm hb, .inr (.inr rfl)⟩
    · refine ⟨[], carries_nil _ _, List.not_mem_nil, ?_⟩
      rw [hnil]
      exact hend.imp (⟨Nat.zero_le _, ·⟩) (.inl ⟨Nat.zero_le _, ·⟩)
  | succ room ih =>
    rcases byte?_cases memory start with ⟨b, hb, hbyte⟩ | hend
    · -- one more byte of the name that goes on behind it
      obtain ⟨name, hname, hnul, hend⟩ := ih (start + 1)
      refine ⟨b :: name, carries_cons_iff.2 ⟨hbyte, hname⟩, ?_, ?_⟩
      · rw [List.mem_cons, not_or]
        exact ⟨Ne.symm hb, hnul⟩
      · have hbehind : start + UInt32.ofNat (b :: name).length =
            start + 1 + UInt32.ofNat name.length := by
          rw [List.length_cons, Nat.add_comm, UInt32.ofNat_add, UInt32.add_assoc]
          rfl
        rw [hbehind, List.length_cons]
        exact hend.imp (.imp_left (by omega)) (.imp (.imp_left (by omega)) (by omega))
    · refine ⟨[], carries_nil _ _, List.not_mem_nil, ?_⟩
      rw [hnil]
      exact hend.imp (⟨Nat.zero_le _, ·⟩) (.inl ⟨Nat.zero_le _, ·⟩)

/-! ### Entries -/

namespace Entry

/-- The bytes of an entry in memory. -/
def bytes (e : Entry) : List UInt8 := Word.bigEndian e.address ++ (e.name ++ [0])

/-- An entry that can be told from the end of the symbols and from others, with a name that is
not too long. -/
structure WellFormed (limit : Nat) (e : Entry) : Prop where
  /-- The address is not the one that ends the symbols. -/
  address_ne : e.address ≠ 0
  /-- Nothing ends the name but the NUL behind it. -/
  nul_notMem : 0 ∉ e.name
  /-- The name is not too long. -/
  length_le : e.name.length ≤ limit

/-- The bytes of an entry lie in memory from an address on.  The bytes of its own address are
read at once, and so lie where they do in any memory. -/
structure LiesAt (e : Entry) (memory : Memory) (start : UInt32) : Prop where
  /-- There is the address. -/
  address : memory.Holds start.toNat (Word.bigEndian e.address)
  /-- Behind it there are the name and a NUL. -/
  name : memory.Carries (start + 4) (e.name ++ [0])

end Entry

/-- The bytes of some entries, one behind another. -/
def bytesOf (entries : List Entry) : List UInt8 := entries.flatMap Entry.bytes

/-- The symbols of the entries that have ASCII names, in order. -/
def symbolsOf (entries : List Entry) : List (UInt32 × String) :=
  (entries.filter Entry.isAscii).map Entry.symbol

/-- Memory holds some well-formed entries from a position on. -/
structure Entries (memory : Memory) (limit position : Nat) (entries : List Entry) : Prop where
  /-- Their bytes are there. -/
  holds : memory.Holds position (bytesOf entries)
  /-- They are well-formed. -/
  wellFormed : ∀ e ∈ entries, e.WellFormed limit

variable {e : Entry} {entries : List Entry}

lemma bytesOf_cons (e : Entry) (entries : List Entry) :
    bytesOf (e :: entries) = e.bytes ++ bytesOf entries :=
  List.flatMap_cons

lemma symbolsOf_append (front back : List Entry) :
    symbolsOf (front ++ back) = symbolsOf front ++ symbolsOf back := by
  rw [symbolsOf, List.filter_append, List.map_append]
  rfl

lemma symbolsOf_cons (e : Entry) (entries : List Entry) :
    symbolsOf (e :: entries) = symbolsOf [e] ++ symbolsOf entries :=
  symbolsOf_append [e] entries

lemma symbolsOf_singleton (e : Entry) :
    symbolsOf [e] = if e.isAscii = true then [e.symbol] else [] := by
  rw [symbolsOf, List.filter_singleton]
  cases e.isAscii <;> rfl

lemma length_symbolsOf_singleton_le (e : Entry) : (symbolsOf [e]).length ≤ 1 := by
  rw [symbolsOf_singleton]
  split
  · exact Nat.le_refl 1
  · exact Nat.zero_le 1

lemma length_bytes (e : Entry) : e.bytes.length = 4 + e.name.length + 1 := by
  rw [Entry.bytes, List.length_append, List.length_append, Word.length_bigEndian,
    List.length_singleton, Nat.add_assoc]

lemma entries_cons_iff :
    Entries memory limit position (e :: entries) ↔
      memory.Holds position e.bytes ∧ e.WellFormed limit ∧
        Entries memory limit (position + e.bytes.length) entries := by
  constructor
  · rintro ⟨hholds, hwellFormed⟩
    rw [bytesOf_cons] at hholds
    obtain ⟨hfirst, hrest⟩ := holds_append_iff.1 hholds
    obtain ⟨he, hentries⟩ := List.forall_mem_cons.1 hwellFormed
    exact ⟨hfirst, he, hrest, hentries⟩
  · rintro ⟨hfirst, he, hrest, hentries⟩
    refine ⟨?_, List.forall_mem_cons.2 ⟨he, hentries⟩⟩
    rw [bytesOf_cons]
    exact holds_append_iff.2 ⟨hfirst, hrest⟩

/-! ### Entries around the greatest address -/

/-- Well-formed entries lie in memory from an address on, one behind another. -/
def Chain (memory : Memory) (limit : Nat) : UInt32 → List Entry → Prop
  | _, [] => True
  | start, e :: rest =>
    (e.LiesAt memory start ∧ e.WellFormed limit) ∧
      Chain memory limit (start + UInt32.ofNat e.bytes.length) rest

lemma chain_cons_iff :
    Chain memory limit start (e :: entries) ↔
      (e.LiesAt memory start ∧ e.WellFormed limit) ∧
        Chain memory limit (start + UInt32.ofNat e.bytes.length) entries :=
  Iff.rfl

lemma behind_nil (start : UInt32) : start + UInt32.ofNat (bytesOf []).length = start :=
  UInt32.add_zero start

/-- Where it goes on behind an entry and others is where it goes on behind them all. -/
lemma behind_cons (start : UInt32) (e : Entry) (entries : List Entry) :
    start + UInt32.ofNat (bytesOf (e :: entries)).length =
      start + UInt32.ofNat e.bytes.length + UInt32.ofNat (bytesOf entries).length := by
  rw [bytesOf_cons, List.length_append, UInt32.ofNat_add, UInt32.add_assoc]

lemma behind_append (start : UInt32) (front back : List Entry) :
    start + UInt32.ofNat (bytesOf (front ++ back)).length =
      start + UInt32.ofNat (bytesOf front).length + UInt32.ofNat (bytesOf back).length := by
  rw [bytesOf, List.flatMap_append, List.length_append, UInt32.ofNat_add, UInt32.add_assoc]
  rfl

lemma behind_name (start : UInt32) (e : Entry) :
    start + 4 + UInt32.ofNat e.name.length + 1 = start + UInt32.ofNat e.bytes.length := by
  rw [length_bytes, UInt32.ofNat_add, UInt32.ofNat_add, UInt32.add_assoc, UInt32.add_assoc,
    UInt32.add_assoc]
  rfl

lemma chain_append_iff {front back : List Entry} :
    Chain memory limit start (front ++ back) ↔
      Chain memory limit start front ∧
        Chain memory limit (start + UInt32.ofNat (bytesOf front).length) back := by
  induction front generalizing start with
  | nil =>
    rw [behind_nil]
    exact (iff_of_eq (true_and _)).symm
  | cons e rest ih =>
    rw [List.cons_append, chain_cons_iff, chain_cons_iff, ih, behind_cons]
    exact and_assoc.symm

/-- An entry in memory that 32 bits address does not go on at zero. -/
lemma liesAt_of_holds (h : memory.Holds position e.bytes) (hsize : memory.size < UInt32.size) :
    e.LiesAt memory (UInt32.ofNat position) := by
  have hin := h.length_le (by simp [Entry.bytes])
  obtain ⟨haddress, hname⟩ := holds_append_iff.1 h
  have hposition : (UInt32.ofNat position).toNat = position :=
    UInt32.toNat_ofNat_of_lt' (by omega)
  refine ⟨hposition.symm ▸ haddress, ?_⟩
  rw [Word.length_bigEndian] at hname
  have hcarries := hname.carries hsize
  rwa [UInt32.ofNat_add] at hcarries

lemma Entry.LiesAt.holds (h : e.LiesAt memory start) (hsize : memory.size < UInt32.size) :
    memory.Holds start.toNat e.bytes := by
  have hbehind : (start + 4).toNat = start.toNat + 4 := h.address.toNat_behind hsize
  refine holds_append_iff.2 ⟨h.address, ?_⟩
  rw [Word.length_bigEndian, ← hbehind]
  exact h.name.holds hsize

/-- Neither do entries one behind another. -/
lemma Entries.chain (h : Entries memory limit position entries)
    (hsize : memory.size < UInt32.size) :
    Chain memory limit (UInt32.ofNat position) entries := by
  induction entries generalizing position with
  | nil => exact trivial
  | cons e rest ih =>
    obtain ⟨hfirst, he, hrest⟩ := entries_cons_iff.1 h
    refine ⟨⟨liesAt_of_holds hfirst hsize, he⟩, ?_⟩
    rw [← UInt32.ofNat_add]
    exact ih hrest

/-- What is read at an address is the well-formed entry there. -/
theorem readEntry_of_liesAt (h : e.LiesAt memory start) (he : e.WellFormed limit) :
    readEntry memory limit start = .ok (some (e, start + UInt32.ofNat e.bytes.length)) := by
  rw [← behind_name]
  exact readEntry_of_readName (addressAt?_eq_some_iff.2 h.address) he.address_ne
    (readName_of_whole h.name he.nul_notMem he.length_le)

/-- Nothing else is read. -/
theorem liesAt_of_readEntry (h : readEntry memory limit start = .ok (some (e, next))) :
    (e.LiesAt memory start ∧ e.WellFormed limit) ∧
      next = start + UInt32.ofNat e.bytes.length := by
  obtain ⟨haddress, hne, hread⟩ := readEntry_eq_some_iff.1 h
  obtain ⟨name, hname, hnul, ⟨hle, hzero⟩ | ⟨hle, hnone⟩ | hlong⟩ :=
    exists_name memory limit (start + 4)
  · have hwhole : memory.Carries (start + 4) (name ++ [0]) :=
      carries_append_iff.2 ⟨hname, carries_singleton_iff.2 hzero⟩
    rw [readName_of_whole hwhole hnul hle] at hread
    obtain ⟨rfl, rfl⟩ := Prod.mk.inj (Except.ok.inj hread)
    exact ⟨⟨⟨addressAt?_eq_some_iff.1 haddress, hwhole⟩, ⟨hne, hnul, hle⟩⟩, behind_name start e⟩
  · rw [readName_of_cut hname hnul hle hnone] at hread
    cases hread
  · rw [readName_of_long hname hnul hlong] at hread
    cases hread

/-- The symbol of an entry comes first, if it has one, and takes some of the room. -/
lemma scanFrom_of_readEntry (hroom : 0 < room)
    (h : readEntry memory limit start = .ok (some (e, next))) :
    scanFrom memory limit room start =
      (scanFrom memory limit (room - (symbolsOf [e]).length) next).map (symbolsOf [e] ++ ·) := by
  obtain ⟨left, rfl⟩ : ∃ left, room = left + 1 := ⟨room - 1, by omega⟩
  rw [scanFrom_succ_of_some h, symbolsOf_singleton]
  split
  · rfl
  · change _ = (scanFrom memory limit (left + 1) next).map id
    cases scanFrom memory limit (left + 1) next <;> rfl

end SymbolTable
end RemoteDebugger
