/-
# Directories by key

What is under a key, what is nearest below one, and what a directory is made of.  As the
entries are strictly ascending, a directory is the values under its keys and nothing else
(`Directory.ext_get?`), and a search from one end finds the least or the greatest entry.
-/
import Mathlib.Data.List.Nodup
import Mathlib.Order.Bounds.Defs
import RemoteDebugger.Directory

namespace RemoteDebugger
namespace Directory

variable {α β : Type} {d : Directory α} {key : UInt32} {value : α} {e : UInt32 × α}

/-! ### What is under a key -/

lemma mem_keys_iff {d : Directory α} {key : UInt32} :
    key ∈ d.keys ↔ ∃ value, d.get? key = some value := by
  simp only [keys, get?, List.mem_map, Option.map_eq_some_iff, List.find?_eq_some_iff_append]
  constructor
  · rintro ⟨e, he, rfl⟩
    have hfind : (d.entries.find? (·.1 == e.1)).isSome := List.find?_isSome.2 ⟨e, he, by simp⟩
    obtain ⟨f, hf⟩ := Option.isSome_iff_exists.1 hfind
    exact ⟨f.2, f, List.find?_eq_some_iff_append.1 hf, rfl⟩
  · rintro ⟨value, f, ⟨hf, as, bs, heq, -⟩, -⟩
    exact ⟨f, by rw [heq]; simp, by simpa using hf⟩

lemma contains_iff_mem_keys {d : Directory α} {key : UInt32} :
    d.contains key = true ↔ key ∈ d.keys := by
  rw [mem_keys_iff, contains, Option.isSome_iff_exists]

lemma get?_map (d : Directory α) (f : UInt32 → α → β) (key : UInt32) :
    (d.map f).get? key = (d.get? key).map (f key) := by
  have hfind : (d.map f).entries.find? (·.1 == key) =
      (d.entries.find? (·.1 == key)).map fun e => (e.1, f e.1 e.2) := List.find?_map ..
  rw [get?, get?, hfind]
  cases he : d.entries.find? (fun e => e.1 == key) with
  | none => rfl
  | some e =>
    have hkey : e.1 = key := by simpa using List.find?_some he
    simp [hkey]

@[simp] lemma keys_map (d : Directory α) (f : UInt32 → α → β) : (d.map f).keys = d.keys := by
  simp [keys, map]

lemma nodup_keys (d : Directory α) : d.keys.Nodup := by
  refine List.pairwise_map.2 (d.ascending.imp ?_)
  intro a b hlt heq
  rw [heq] at hlt
  exact UInt32.lt_irrefl _ hlt

lemma eq_empty_of_keys {d : Directory α} (h : ∀ key, key ∉ d.keys) : d = {} :=
  ext_entries (List.map_eq_nil_iff.1 (List.eq_nil_iff_forall_not_mem.2 h))

lemma eq_of_mem_of_fst_eq {f : UInt32 × α} (he : e ∈ d.entries) (hf : f ∈ d.entries)
    (heq : e.1 = f.1) : e = f :=
  List.inj_on_of_nodup_map d.nodup_keys he hf heq

lemma mem_keys_iff_exists : key ∈ d.keys ↔ ∃ value, (key, value) ∈ d.entries := by
  constructor
  · intro h
    obtain ⟨e, he, rfl⟩ := List.mem_map.1 h
    exact ⟨e.2, he⟩
  · rintro ⟨value, h⟩
    exact List.mem_map.2 ⟨_, h, rfl⟩

lemma mem_of_get? {d : Directory α} {key : UInt32} {value : α} (h : d.get? key = some value) :
    (key, value) ∈ d.entries := by
  obtain ⟨e, he, rfl⟩ := Option.map_eq_some_iff.1 h
  have hkey : e.1 = key := by simpa using List.find?_some he
  rw [← hkey]
  exact List.mem_of_find?_eq_some he

lemma get?_eq_some_iff : d.get? key = some value ↔ (key, value) ∈ d.entries := by
  refine ⟨mem_of_get?, fun h => ?_⟩
  obtain ⟨other, hother⟩ := mem_keys_iff.1 (mem_keys_iff_exists.2 ⟨value, h⟩)
  obtain ⟨-, rfl⟩ := Prod.mk.inj (eq_of_mem_of_fst_eq h (mem_of_get? hother) rfl)
  exact hother

/-- Directories with the same values under the same keys are equal. -/
lemma ext_get? {d' : Directory α} (h : ∀ key, d.get? key = d'.get? key) : d = d' := by
  have hmem (e : UInt32 × α) : e ∈ d.entries ↔ e ∈ d'.entries := by
    rw [← get?_eq_some_iff, ← get?_eq_some_iff, h]
  have hperm : d.entries.Perm d'.entries :=
    (List.perm_ext_iff_of_nodup (.of_map _ d.nodup_keys) (.of_map _ d'.nodup_keys)).2 hmem
  refine ext_entries (hperm.eq_of_pairwise ?_ d.ascending d'.ascending)
  intro a b _ _ hab hba
  exact absurd (UInt32.lt_trans hab hba) (UInt32.lt_irrefl _)

/-! ### Ascending entries -/

/-- Of ascending entries the last is the greatest. -/
lemma le_of_getLast? {entries : List (UInt32 × α)}
    (hascending : entries.Pairwise fun a b => a.1 < b.1) (h : entries.getLast? = some e)
    {f : UInt32 × α} (hf : f ∈ entries) : f.1 ≤ e.1 := by
  obtain ⟨front, rfl⟩ := List.getLast?_eq_some_iff.1 h
  obtain ⟨-, -, hlt⟩ := List.pairwise_append.1 hascending
  rcases List.mem_append.1 hf with hf | hf
  · exact UInt32.le_of_lt (hlt f hf e List.mem_cons_self)
  · rw [List.mem_singleton.1 hf]
    exact UInt32.le_refl _

/-- Of ascending entries the one that is found first is the least. -/
lemma le_of_find? {entries : List (UInt32 × α)} {p : UInt32 × α → Bool}
    (hascending : entries.Pairwise fun a b => a.1 < b.1) (h : entries.find? p = some e)
    {f : UInt32 × α} (hf : f ∈ entries) (hp : p f = true) : e.1 ≤ f.1 := by
  obtain ⟨-, before, after, rfl, hnone⟩ := List.find?_eq_some_iff_append.1 h
  obtain ⟨-, hbehind, -⟩ := List.pairwise_append.1 hascending
  rcases List.mem_append.1 hf with hf | hf
  · have := hnone f hf
    simp [hp] at this
  · rcases List.mem_cons.1 hf with rfl | hf
    · exact UInt32.le_refl _
    · exact UInt32.le_of_lt ((List.pairwise_cons.1 hbehind).1 f hf)

/-- The entries up to a key are those that ascending entries begin with. -/
lemma mem_takeWhile_iff {entries : List (UInt32 × α)}
    (hascending : entries.Pairwise fun a b => a.1 < b.1) :
    e ∈ entries.takeWhile (·.1 ≤ key) ↔ e ∈ entries ∧ e.1 ≤ key := by
  induction entries with
  | nil => simp
  | cons f rest ih =>
    obtain ⟨hlt, hrest⟩ := List.pairwise_cons.1 hascending
    by_cases hf : f.1 ≤ key
    · rw [List.takeWhile_cons_of_pos (by simpa using hf), List.mem_cons, List.mem_cons, ih hrest]
      constructor
      · rintro (rfl | ⟨he, hle⟩)
        · exact ⟨.inl rfl, hf⟩
        · exact ⟨.inr he, hle⟩
      · rintro ⟨rfl | he, hle⟩
        · exact .inl rfl
        · exact .inr ⟨he, hle⟩
    · rw [List.takeWhile_cons_of_neg (by simpa using hf)]
      refine iff_of_false List.not_mem_nil ?_
      rintro ⟨he, hle⟩
      rcases List.mem_cons.1 he with rfl | he
      · exact hf hle
      · exact hf (UInt32.le_trans (UInt32.le_of_lt (hlt e he)) hle)

/-! ### What is below a key -/

lemma mem_of_floor? {d : Directory α} {key : UInt32} {e : UInt32 × α}
    (h : d.floor? key = some e) : e ∈ d.entries :=
  (List.takeWhile_prefix _).subset (List.mem_of_getLast? h)

lemma floor?_eq_none_iff : d.floor? key = none ↔ ∀ k ∈ d.keys, key < k := by
  rw [floor?, List.getLast?_eq_none_iff, List.eq_nil_iff_forall_not_mem]
  simp only [mem_takeWhile_iff d.ascending, not_and, UInt32.not_le]
  exact List.forall_mem_map.symm

lemma floor?_eq_some_iff :
    d.floor? key = some e ↔ e ∈ d.entries ∧ IsGreatest {k | k ∈ d.keys ∧ k ≤ key} e.1 := by
  have hle {f g : UInt32 × α} (h : d.floor? key = some f) (hg : g ∈ d.entries)
      (hkey : g.1 ≤ key) : g.1 ≤ f.1 :=
    le_of_getLast? (d.ascending.sublist (List.takeWhile_sublist _)) h
      ((mem_takeWhile_iff d.ascending).2 ⟨hg, hkey⟩)
  constructor
  · intro h
    obtain ⟨he, hkey⟩ := (mem_takeWhile_iff d.ascending).1 (List.mem_of_getLast? h)
    refine ⟨he, ⟨List.mem_map_of_mem he, hkey⟩, ?_⟩
    rintro k ⟨hk, hbelow⟩
    obtain ⟨g, hg, rfl⟩ := List.mem_map.1 hk
    exact hle h hg hbelow
  · rintro ⟨he, ⟨hk, hkey⟩, hgreatest⟩
    cases h : d.floor? key with
    | none => exact absurd (floor?_eq_none_iff.1 h _ hk) (UInt32.not_lt.2 hkey)
    | some f =>
      obtain ⟨hf, hbelow⟩ := (mem_takeWhile_iff d.ascending).1 (List.mem_of_getLast? h)
      have hfe : f.1 ≤ e.1 := hgreatest ⟨List.mem_map_of_mem hf, hbelow⟩
      rw [eq_of_mem_of_fst_eq hf he (UInt32.le_antisymm hfe (hle h he hkey))]

/-! ### The directory of some pairs -/

/-- The first of some pairs with a key has a value. -/
def First (pairs : List (UInt32 × α)) (key : UInt32) (value : α) : Prop :=
  ∃ before after, pairs = before ++ (key, value) :: after ∧ ∀ p ∈ before, p.1 ≠ key

lemma mem_ofPairs {pairs : List (UInt32 × α)} {e : UInt32 × α}
    (h : e ∈ (ofPairs pairs).entries) : e ∈ pairs := by
  induction pairs with
  | nil => exact h
  | cons pair rest ih =>
    rcases mem_insertEntry h with rfl | h
    · exact List.mem_cons_self
    · exact List.mem_cons_of_mem pair (ih h)

lemma get?_ofPairs (pairs : List (UInt32 × α)) (key : UInt32) :
    (ofPairs pairs).get? key = (pairs.find? (·.1 == key)).map (·.2) := by
  induction pairs with
  | nil => rfl
  | cons p rest ih =>
    have hinsert : ofPairs (p :: rest) = (ofPairs rest).insert p.1 p.2 := rfl
    rw [hinsert, get?_insert, ih, List.find?_cons]
    by_cases hp : p.1 = key
    · rw [if_pos hp, beq_iff_eq.2 hp]
      rfl
    · rw [if_neg hp, beq_eq_false_iff_ne.2 hp]

lemma mem_entries_ofPairs_iff {pairs : List (UInt32 × α)} :
    (key, value) ∈ (ofPairs pairs).entries ↔ First pairs key value := by
  rw [← get?_eq_some_iff, get?_ofPairs, Option.map_eq_some_iff]
  constructor
  · rintro ⟨p, hfind, rfl⟩
    obtain ⟨hp, before, after, hpairs, hnone⟩ := List.find?_eq_some_iff_append.1 hfind
    obtain rfl : p.1 = key := by simpa using hp
    exact ⟨before, after, hpairs, fun q hq => by simpa using hnone q hq⟩
  · rintro ⟨before, after, hpairs, hnone⟩
    refine ⟨(key, value), List.find?_eq_some_iff_append.2 ⟨by simp, before, after, hpairs, ?_⟩, rfl⟩
    exact fun q hq => by simpa using hnone q hq

lemma mem_keys_ofPairs_iff {pairs : List (UInt32 × α)} :
    key ∈ (ofPairs pairs).keys ↔ ∃ value, (key, value) ∈ pairs := by
  rw [mem_keys_iff_exists]
  constructor
  · rintro ⟨value, h⟩
    exact ⟨value, mem_ofPairs h⟩
  · rintro ⟨value, h⟩
    have hfind : (pairs.find? (·.1 == key)).isSome := List.find?_isSome.2 ⟨_, h, by simp⟩
    obtain ⟨p, hp⟩ := Option.isSome_iff_exists.1 hfind
    refine ⟨p.2, get?_eq_some_iff.1 ?_⟩
    rw [get?_ofPairs, hp]
    rfl

end Directory
end RemoteDebugger
