/-
# Values under words, in order

A directory keeps values under 32-bit keys: the words under breakpoints by address, the
watches by number, the symbols by address.  Its entries are strictly ascending by key, so
two directories with the same values under the same keys are equal, and reading the
entries off in order needs no sorting.
-/

namespace RemoteDebugger

/-- Values under words. -/
structure Directory (α : Type) where
  /-- The keys and their values. -/
  entries : List (UInt32 × α) := []
  /-- The keys are strictly ascending. -/
  ascending : entries.Pairwise (fun a b => a.1 < b.1) := by simp
deriving DecidableEq, Repr

namespace Directory

variable {α β : Type}

instance : Inhabited (Directory α) := ⟨{}⟩

/-- The directory without entries. -/
def empty : Directory α := {}

/-- The number of entries. -/
def size (d : Directory α) : Nat := d.entries.length

/-- Whether there are no entries. -/
def isEmpty (d : Directory α) : Bool := d.entries.isEmpty

/-- The keys in ascending order. -/
def keys (d : Directory α) : List UInt32 := d.entries.map (·.1)

/-- The values in ascending order of their keys. -/
def values (d : Directory α) : List α := d.entries.map (·.2)

/-- The value under a key. -/
def get? (d : Directory α) (key : UInt32) : Option α :=
  (d.entries.find? (·.1 == key)).map (·.2)

/-- Whether there is a value under a key. -/
def contains (d : Directory α) (key : UInt32) : Bool := (d.get? key).isSome

/-- The entry with the greatest key that is not above a given one. -/
def floor? (d : Directory α) (key : UInt32) : Option (UInt32 × α) :=
  (d.entries.takeWhile (·.1 ≤ key)).getLast?

/-- Put an entry in its place among ascending entries. -/
def insertEntry (key : UInt32) (value : α) : List (UInt32 × α) → List (UInt32 × α)
  | [] => [(key, value)]
  | e :: rest =>
    if key < e.1 then (key, value) :: e :: rest
    else if key = e.1 then (key, value) :: rest
    else e :: insertEntry key value rest

theorem mem_insertEntry {key : UInt32} {value : α} {entries : List (UInt32 × α)}
    {e : UInt32 × α} (h : e ∈ insertEntry key value entries) : e = (key, value) ∨ e ∈ entries := by
  induction entries with
  | nil => simpa [insertEntry] using h
  | cons f rest ih =>
    rw [insertEntry] at h
    split at h
    · simpa using h
    · split at h
      · rcases List.mem_cons.1 h with h | h
        · exact .inl h
        · exact .inr (List.mem_cons_of_mem _ h)
      · rcases List.mem_cons.1 h with h | h
        · exact .inr (h ▸ List.mem_cons_self)
        · exact (ih h).imp_right (List.mem_cons_of_mem _)

theorem ascending_insertEntry (key : UInt32) (value : α) {entries : List (UInt32 × α)}
    (h : entries.Pairwise (fun a b => a.1 < b.1)) :
    (insertEntry key value entries).Pairwise (fun a b => a.1 < b.1) := by
  induction entries with
  | nil => simp [insertEntry]
  | cons e rest ih =>
    obtain ⟨hhead, htail⟩ := List.pairwise_cons.1 h
    rw [insertEntry]
    split
    · next hlt =>
      refine List.pairwise_cons.2 ⟨fun f hf => ?_, h⟩
      rcases List.mem_cons.1 hf with rfl | hf
      · exact hlt
      · exact UInt32.lt_trans hlt (hhead f hf)
    · next hnlt =>
      split
      · next heq =>
        refine List.pairwise_cons.2 ⟨fun f hf => ?_, htail⟩
        rw [heq]
        exact hhead f hf
      · next hne =>
        refine List.pairwise_cons.2 ⟨fun f hf => ?_, ih htail⟩
        rcases mem_insertEntry hf with rfl | hf
        · have h₁ : ¬ key.toNat < e.1.toNat := hnlt
          have h₂ : key.toNat ≠ e.1.toNat := fun h => hne (UInt32.toNat_inj.1 h)
          have h₃ : e.1.toNat < key.toNat := by omega
          exact h₃
        · exact hhead f hf

/-- Put a value under a key, in place of the one that is there. -/
def insert (d : Directory α) (key : UInt32) (value : α) : Directory α :=
  { entries := insertEntry key value d.entries
    ascending := ascending_insertEntry key value d.ascending }

/-- Take the value under a key away. -/
def erase (d : Directory α) (key : UInt32) : Directory α :=
  { entries := d.entries.filter (·.1 != key)
    ascending := d.ascending.filter _ }

/-- Change every value, in the light of its key. -/
def map (d : Directory α) (f : UInt32 → α → β) : Directory β :=
  { entries := d.entries.map fun e => (e.1, f e.1 e.2)
    ascending := List.pairwise_map.2 d.ascending }

/-- The directory of some pairs; of pairs with one key the first counts. -/
def ofPairs (pairs : List (UInt32 × α)) : Directory α :=
  pairs.foldr (fun p d => d.insert p.1 p.2) empty

theorem ext_entries {d e : Directory α} (h : d.entries = e.entries) : d = e := by
  cases d; cases e; cases h; rfl

theorem find?_insertEntry (key : UInt32) (value : α) (entries : List (UInt32 × α)) (k : UInt32)
    (h : entries.Pairwise (fun a b => a.1 < b.1)) :
    (insertEntry key value entries).find? (·.1 == k) =
      if key = k then some (key, value) else entries.find? (·.1 == k) := by
  induction entries with
  | nil => by_cases hk : key = k <;> simp [insertEntry, hk]
  | cons e rest ih =>
    obtain ⟨_, htail⟩ := List.pairwise_cons.1 h
    rw [insertEntry]
    split
    · by_cases hk : key = k <;> simp [hk]
    · split
      · next heq =>
        by_cases hk : key = k
        · simp [hk]
        · have : ¬ e.1 = k := fun he => hk (heq.trans he)
          simp [hk, this]
      · next hne =>
        by_cases he : e.1 = k
        · have : ¬ key = k := fun hk => hne (hk.trans he.symm)
          simp [he, this]
        · simp only [List.find?_cons, beq_eq_false_iff_ne.2 he]
          exact ih htail

/-- What is under a key after an insertion. -/
theorem get?_insert (d : Directory α) (key : UInt32) (value : α) (k : UInt32) :
    (d.insert key value).get? k = if key = k then some value else d.get? k := by
  unfold get? insert
  rw [find?_insertEntry key value d.entries k d.ascending]
  by_cases hk : key = k <;> simp [hk]

/-- What is under a key after a removal. -/
theorem get?_erase (d : Directory α) (key k : UInt32) :
    (d.erase key).get? k = if key = k then none else d.get? k := by
  change ((d.entries.filter (·.1 != key)).find? (·.1 == k)).map (·.2) = _
  unfold get?
  generalize d.entries = entries
  induction entries with
  | nil => simp
  | cons e rest ih =>
    by_cases he : e.1 = key
    · rw [List.filter_cons_of_neg (by simp [he]), ih, List.find?_cons]
      by_cases hk : key = k
      · simp [hk]
      · simp [he, beq_eq_false_iff_ne.2 hk]
    · rw [List.filter_cons_of_pos (by simp [he]), List.find?_cons, List.find?_cons]
      by_cases hk : e.1 = k
      · have : ¬ key = k := fun h => he (hk.trans h.symm)
        simp [hk, this]
      · simp only [beq_eq_false_iff_ne.2 hk]
        exact ih

end Directory
end RemoteDebugger
