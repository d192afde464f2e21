/-
# Tables of symbols and what they answer

A table is made of pairs of addresses and names in any order, with an address in any number of
them; the first name of an address counts.  A query goes by the ascending order of the table:
an address is named by the nearest address at or before it, and a name stands for the lowest of
its addresses.  Here is what the table of some pairs is and answers, in terms of the pairs alone
(`SymbolTable.isTableOf_ofPairs`).
-/
import RemoteDebugger.Proofs.Directory
import RemoteDebugger.Symbol.Table

namespace RemoteDebugger
namespace SymbolTable

open Directory

variable {symbols : SymbolTable} {address distance : UInt32} {name : String}

/-! ### Queries -/

lemma lookup_eq_some_iff :
    symbols.lookup address = (some name, distance) ↔
      ∃ start, IsGreatest {a | a ∈ symbols.keys ∧ a ≤ address} start ∧
        (start, name) ∈ symbols.entries ∧ distance = address - start := by
  constructor
  · intro h
    rw [lookup] at h
    split at h
    · next start found hfloor =>
      obtain ⟨hname, hdistance⟩ := Prod.mk.inj h
      obtain rfl := Option.some.inj hname
      obtain ⟨hmem, hgreatest⟩ := floor?_eq_some_iff.1 hfloor
      exact ⟨start, hgreatest, hmem, hdistance.symm⟩
    · cases h
  · rintro ⟨start, hgreatest, hmem, rfl⟩
    rw [lookup, floor?_eq_some_iff.2 ⟨hmem, hgreatest⟩]

lemma lookup_eq_none_iff :
    symbols.lookup address = (none, distance) ↔
      (∀ a ∈ symbols.keys, address < a) ∧ distance = address := by
  rw [← floor?_eq_none_iff, lookup]
  cases symbols.floor? address with
  | none => simp [eq_comm]
  | some e => simp

lemma nameAt?_eq_some_iff :
    symbols.nameAt? address = some name ↔
      symbols.lookup address = (some name, 0) ∧ address ∈ symbols.keys := by
  rw [nameAt?, get?_eq_some_iff, lookup_eq_some_iff]
  constructor
  · intro h
    have hkey : address ∈ symbols.keys := mem_keys_iff_exists.2 ⟨name, h⟩
    have hgreatest : IsGreatest {a | a ∈ symbols.keys ∧ a ≤ address} address :=
      ⟨⟨hkey, UInt32.le_refl _⟩, fun a ha => ha.2⟩
    exact ⟨⟨address, hgreatest, h, (UInt32.sub_self _).symm⟩, hkey⟩
  · -- the greatest address at or before one that is there is that one
    rintro ⟨⟨start, ⟨⟨-, hle⟩, hgreatest⟩, hmem, -⟩, hkey⟩
    obtain rfl := UInt32.le_antisymm hle (hgreatest ⟨hkey, UInt32.le_refl _⟩)
    exact hmem

lemma resolve?_eq_none_iff :
    symbols.resolve? name = none ↔ ∀ a, (a, name) ∉ symbols.entries := by
  rw [resolve?, Option.map_eq_none_iff, List.find?_eq_none]
  constructor
  · exact fun h a ha => h _ ha (by simp)
  · rintro h ⟨a, other⟩ ha hother
    obtain rfl : other = name := by simpa using hother
    exact h a ha

lemma resolve?_eq_some_iff :
    symbols.resolve? name = some address ↔
      IsLeast {a | (a, name) ∈ symbols.entries} address := by
  constructor
  · intro h
    obtain ⟨⟨a, other⟩, hfind, rfl⟩ := Option.map_eq_some_iff.1 h
    obtain rfl : other = name := by simpa using List.find?_some hfind
    refine ⟨List.mem_of_find?_eq_some hfind, fun b hb => ?_⟩
    exact le_of_find? symbols.ascending hfind hb (by simp)
  · rintro ⟨hmem, hleast⟩
    cases h : symbols.resolve? name with
    | none => exact absurd hmem (resolve?_eq_none_iff.1 h address)
    | some found =>
      obtain ⟨⟨a, other⟩, hfind, rfl⟩ := Option.map_eq_some_iff.1 h
      obtain rfl : other = name := by simpa using List.find?_some hfind
      have hle : a ≤ address := le_of_find? symbols.ascending hfind hmem (by simp)
      rw [UInt32.le_antisymm hle (hleast (List.mem_of_find?_eq_some hfind))]

/-- A table is that of some pairs, and answers in their terms. -/
structure IsTableOf (pairs : List (UInt32 × String)) (symbols : SymbolTable) : Prop where
  /-- The addresses are strictly ascending. -/
  ascending : symbols.keys.Pairwise (· < ·)
  /-- They are the addresses of the pairs. -/
  mem_keys (address : UInt32) : address ∈ symbols.keys ↔ ∃ name, (address, name) ∈ pairs
  /-- An address has its first name. -/
  mem_entries (address : UInt32) (name : String) :
    (address, name) ∈ symbols.entries ↔ First pairs address name
  /-- An address is looked up as the greatest one in the table that is not above it. -/
  lookup_some (address distance : UInt32) (name : String) :
    symbols.lookup address = (some name, distance) ↔
      ∃ start, IsGreatest {a | a ∈ symbols.keys ∧ a ≤ address} start ∧
        (start, name) ∈ symbols.entries ∧ distance = address - start
  /-- If all are above it there is no name, and the distance is from zero. -/
  lookup_none (address distance : UInt32) :
    symbols.lookup address = (none, distance) ↔
      (∀ a ∈ symbols.keys, address < a) ∧ distance = address
  /-- The name of exactly an address is that of an address at no distance. -/
  nameAt (address : UInt32) (name : String) :
    symbols.nameAt? address = some name ↔
      symbols.lookup address = (some name, 0) ∧ address ∈ symbols.keys
  /-- A name stands for its least address. -/
  resolve_some (address : UInt32) (name : String) :
    symbols.resolve? name = some address ↔ IsLeast {a | (a, name) ∈ symbols.entries} address
  /-- A name without an address stands for none. -/
  resolve_none (name : String) :
    symbols.resolve? name = none ↔ ∀ address, (address, name) ∉ symbols.entries

/-- The table that is made of some pairs is theirs, and every query is answered accordingly. -/
theorem isTableOf_ofPairs (pairs : List (UInt32 × String)) : IsTableOf pairs (.ofPairs pairs) where
  ascending := List.pairwise_map.2 (Directory.ofPairs pairs).ascending
  mem_keys _ := mem_keys_ofPairs_iff
  mem_entries _ _ := mem_entries_ofPairs_iff
  lookup_some _ _ _ := lookup_eq_some_iff
  lookup_none _ _ := lookup_eq_none_iff
  nameAt _ _ := nameAt?_eq_some_iff
  resolve_some _ _ := resolve?_eq_some_iff
  resolve_none _ := resolve?_eq_none_iff

example : lookup (.ofPairs [(16, "b"), (8, "a"), (16, "c")]) 20 = (some "b", 4) := by decide

end SymbolTable
end RemoteDebugger
