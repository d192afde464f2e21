/-
# Directories by sorting and halving

A directory may be kept as a vector.  Pairs are sorted by key, with the order of those that have
one key left as it is, and of neighbours with one key the first stays (`Directory.sorted`).  What
is under a key, and what is nearest below one, is searched by halving (`Directory.search`,
`Directory.partitionPoint`).  This gives what inserting the pairs one by one and looking from
one end gives (`Directory.entries_ofPairs`, `Directory.get?_eq_search`,
`Directory.floor?_eq_partitionPoint`).
-/
import Mathlib.Data.List.Destutter
import RemoteDebugger.Proofs.Directory

namespace RemoteDebugger
namespace Directory

variable {α : Type}

/-! ### Sorting -/

/-- The key of an entry is not above that of another. -/
def keyLe (a b : UInt32 × α) : Bool := a.1 ≤ b.1

/-- Some pairs in the order of their keys, and of those with one key the first. -/
def sorted (pairs : List (UInt32 × α)) : List (UInt32 × α) :=
  (pairs.mergeSort keyLe).destutter fun a b => a.1 ≠ b.1

variable {pairs : List (UInt32 × α)} {d : Directory α} {key : UInt32} {e : UInt32 × α}

lemma keyLe_trans (a b c : UInt32 × α) (hab : keyLe a b = true) (hbc : keyLe b c = true) :
    keyLe a c = true :=
  decide_eq_true (UInt32.le_trans (of_decide_eq_true hab) (of_decide_eq_true hbc))

lemma keyLe_total (a b : UInt32 × α) : (keyLe a b || keyLe b a) = true := by
  rw [Bool.or_eq_true]
  exact (UInt32.le_total a.1 b.1).imp decide_eq_true decide_eq_true

lemma pairwise_mergeSort (pairs : List (UInt32 × α)) :
    (pairs.mergeSort keyLe).Pairwise fun a b => a.1 ≤ b.1 :=
  (List.pairwise_mergeSort keyLe_trans keyLe_total pairs).imp of_decide_eq_true

/-- Pairs with one key stay in order. -/
lemma filter_mergeSort (pairs : List (UInt32 × α)) (key : UInt32) :
    (pairs.mergeSort keyLe).filter (·.1 == key) = pairs.filter (·.1 == key) := by
  have hequal : (pairs.filter (·.1 == key)).Pairwise fun a b => keyLe a b = true := by
    refine List.pairwise_of_forall_mem_list fun a ha b hb => ?_
    have hkey : a.1 = b.1 := by
      rw [List.mem_filter, beq_iff_eq] at ha hb
      exact ha.2.trans hb.2.symm
    exact decide_eq_true (UInt32.le_of_eq hkey)
  have hsublist := List.sublist_mergeSort keyLe_trans keyLe_total hequal List.filter_sublist
  have hperm := (List.mergeSort_perm pairs keyLe).filter (·.1 == key)
  have hfiltered : (pairs.filter (·.1 == key)).Sublist
      ((pairs.mergeSort keyLe).filter (·.1 == key)) := by
    simpa only [List.filter_filter, Bool.and_self] using hsublist.filter (·.1 == key)
  exact (hfiltered.eq_of_length hperm.length_eq.symm).symm

/-- The first with a key stays when of neighbours with one key the first stays. -/
lemma find?_destutter' (e : UInt32 × α) (entries : List (UInt32 × α)) (key : UInt32) :
    (entries.destutter' (fun a b => a.1 ≠ b.1) e).find? (·.1 == key) =
      (e :: entries).find? (·.1 == key) := by
  induction entries generalizing e with
  | nil => rfl
  | cons f rest ih =>
    rw [List.destutter'_cons]
    split
    · rw [List.find?_cons, List.find?_cons, ih]
    · next hsame =>
      rw [ih, List.find?_cons, List.find?_cons, List.find?_cons, not_not.1 hsame]
      cases f.1 == key <;> rfl

lemma find?_sorted (pairs : List (UInt32 × α)) (key : UInt32) :
    (sorted pairs).find? (·.1 == key) = pairs.find? (·.1 == key) := by
  have hdestutter (entries : List (UInt32 × α)) :
      (entries.destutter fun a b => a.1 ≠ b.1).find? (·.1 == key) =
        entries.find? (·.1 == key) := by
    cases entries with
    | nil => rfl
    | cons e rest => exact find?_destutter' e rest key
  rw [sorted, hdestutter, ← List.head?_filter, filter_mergeSort, List.head?_filter]

lemma ascending_sorted (pairs : List (UInt32 × α)) :
    (sorted pairs).Pairwise fun a b => a.1 < b.1 := by
  have hle := (pairwise_mergeSort pairs).sublist
    (List.destutter_sublist (fun a b : UInt32 × α => a.1 ≠ b.1) _)
  have hne := List.isChain_destutter (fun a b : UInt32 × α => a.1 ≠ b.1) (pairs.mergeSort keyLe)
  have hlt : (sorted pairs).IsChain fun a b => a.1 < b.1 :=
    List.isChain_iff_getElem.2 fun i hi =>
      UInt32.lt_of_le_of_ne (hle.isChain.getElem i hi) (hne.getElem i hi)
  have : Trans (fun a b : UInt32 × α => a.1 < b.1) (fun a b : UInt32 × α => a.1 < b.1)
      fun a b : UInt32 × α => a.1 < b.1 := ⟨UInt32.lt_trans⟩
  exact hlt.pairwise

/-- Sorted pairs are the entries of their directory. -/
theorem entries_ofPairs (pairs : List (UInt32 × α)) : (ofPairs pairs).entries = sorted pairs := by
  have h : ofPairs pairs = { entries := sorted pairs, ascending := ascending_sorted pairs } := by
    refine ext_get? fun key => ?_
    rw [get?_ofPairs, get?, find?_sorted]
  rw [h]

/-! ### Searching -/

/-- How the entry at a position compares; there is nothing behind the last, and it is above all. -/
def compareAt (cmp : α → Ordering) (entries : List α) (i : Nat) : Ordering :=
  match entries[i]? with
  | some e => cmp e
  | none => .gt

/-- Halve the entries from a position on, so many of them, until one is left. -/
def narrow (cmp : α → Ordering) (entries : List α) (base size : Nat) : Nat :=
  if size ≤ 1 then base
  else
    let middle := base + size / 2
    narrow cmp entries (if compareAt cmp entries middle = .gt then base else middle)
      (size - size / 2)
termination_by size

/-- Where the entry is that is sought, or where it would be. -/
def search (cmp : α → Ordering) (entries : List α) : Except Nat Nat :=
  if entries.isEmpty then .error 0
  else
    let base := narrow cmp entries 0 entries.length
    match compareAt cmp entries base with
    | .eq => .ok base
    | .lt => .error (base + 1)
    | .gt => .error base

/-- How many entries have a property, if they are those before the others. -/
def partitionPoint (p : α → Bool) (entries : List α) : Nat :=
  match search (fun e => if p e then .lt else .gt) entries with
  | .ok i => i
  | .error i => i

/-! ### What is found -/

/-- Entries compare in order: those below what is sought come first, those above it last, and
there is one at most between them. -/
def InOrder (cmp : α → Ordering) (entries : List α) : Prop :=
  entries.Pairwise fun a b => cmp a = .lt ∨ cmp b = .gt

/-- What is sought is among so many entries from a position on, or nowhere. -/
structure Narrowed (cmp : α → Ordering) (entries : List α) (base size : Nat) : Prop where
  /-- The entries before are below it. -/
  below : ∀ i < base, compareAt cmp entries i = .lt
  /-- Those behind are above it. -/
  above : ∀ i ≥ base + size, compareAt cmp entries i = .gt

/-- What is sought is at a position, or it is nowhere, and there are so many entries below it. -/
def Found (cmp : α → Ordering) (entries : List α) : Except Nat Nat → Prop
  | .ok i => compareAt cmp entries i = .eq
  | .error i => Narrowed cmp entries i 0

variable {cmp : α → Ordering} {entries : List α} {base size i j : Nat} {p : α → Bool}

lemma compareAt_eq_cmp (hi : i < entries.length) : compareAt cmp entries i = cmp entries[i] := by
  rw [compareAt, List.getElem?_eq_getElem hi]

lemma compareAt_eq_gt (hi : entries.length ≤ i) : compareAt cmp entries i = .gt := by
  rw [compareAt, List.getElem?_eq_none hi]

/-- There is an entry where the comparison does not say that all are below. -/
lemma lt_length_of_compareAt_ne (h : compareAt cmp entries i ≠ .gt) : i < entries.length :=
  Nat.lt_of_not_le fun hle => h (compareAt_eq_gt hle)

lemma compareAt_of_lt (h : InOrder cmp entries) (hij : i < j) :
    compareAt cmp entries i = .lt ∨ compareAt cmp entries j = .gt := by
  by_cases hj : j < entries.length
  · rw [compareAt_eq_cmp hj, compareAt_eq_cmp (Nat.lt_trans hij hj)]
    exact List.pairwise_iff_getElem.1 h i j (Nat.lt_trans hij hj) hj hij
  · exact .inr (compareAt_eq_gt (Nat.le_of_not_lt hj))

/-- One comparison leaves the half in which it is. -/
lemma narrowed_step (h : InOrder cmp entries) (hnarrowed : Narrowed cmp entries base size)
    (hsize : 1 < size) :
    Narrowed cmp entries
      (if compareAt cmp entries (base + size / 2) = .gt then base else base + size / 2)
      (size - size / 2) := by
  split
  · next hgt =>
    refine ⟨hnarrowed.below, fun i hi => ?_⟩
    rcases Nat.eq_or_lt_of_le (show base + size / 2 ≤ i by omega) with rfl | hlt
    · exact hgt
    · exact (compareAt_of_lt h hlt).resolve_left (by rw [hgt]; nofun)
  · next hle =>
    refine ⟨fun i hi => (compareAt_of_lt h hi).resolve_right hle, fun i hi => ?_⟩
    exact hnarrowed.above i (by omega)

lemma narrowed_narrow (h : InOrder cmp entries) (hnarrowed : Narrowed cmp entries base size)
    (hsize : 0 < size) : Narrowed cmp entries (narrow cmp entries base size) 1 := by
  fun_induction narrow cmp entries base size with
  | case1 base size hone =>
    obtain rfl : size = 1 := by omega
    exact hnarrowed
  | case2 base size hmany middle ih =>
    exact ih (narrowed_step h hnarrowed (by omega)) (by omega)

/-- Halving finds what is sought, or tells how many entries are below it. -/
theorem found_search (h : InOrder cmp entries) : Found cmp entries (search cmp entries) := by
  have hall : Narrowed cmp entries 0 entries.length :=
    ⟨fun i hi => absurd hi (Nat.not_lt_zero i), fun i hi => compareAt_eq_gt (by omega)⟩
  by_cases hempty : entries.isEmpty = true
  · rw [search, if_pos hempty]
    rwa [List.isEmpty_iff.1 hempty] at hall ⊢
  · have hpos : 0 < entries.length :=
      List.length_pos_iff.2 fun hnil => hempty (List.isEmpty_iff.2 hnil)
    have hone := narrowed_narrow h hall hpos
    rw [search, if_neg hempty]
    dsimp only
    cases hlast : compareAt cmp entries (narrow cmp entries 0 entries.length) with
    | eq => exact hlast
    | lt =>
      refine ⟨fun i hi => ?_, hone.above⟩
      rcases Nat.lt_succ_iff_lt_or_eq.1 hi with hi | rfl
      · exact hone.below i hi
      · exact hlast
    | gt =>
      refine ⟨hone.below, fun i hi => ?_⟩
      rcases Nat.eq_or_lt_of_le hi with rfl | hi
      · exact hlast
      · exact hone.above i hi

/-- The entries before the partition point have the property, and those from there on do not. -/
theorem partitionPoint_spec (h : entries.Pairwise fun a b => p a = true ∨ p b = false) :
    (∀ i < partitionPoint p entries, ∃ e, entries[i]? = some e ∧ p e = true) ∧
      ∀ i ≥ partitionPoint p entries, ∀ e, entries[i]? = some e → p e = false := by
  have hlt (e : α) : (if p e then Ordering.lt else .gt) = .lt ↔ p e = true := by
    cases p e <;> simp
  have hgt (e : α) : (if p e then Ordering.lt else .gt) = .gt ↔ p e = false := by
    cases p e <;> simp
  have horder : InOrder (fun e => if p e then .lt else .gt) entries :=
    h.imp fun hab => hab.imp (hlt _).2 (hgt _).2
  have hfound := found_search horder
  rw [partitionPoint]
  cases hsearch : search (fun e => if p e then Ordering.lt else .gt) entries with
  | ok i =>
    -- an entry is below the partition point or above it
    rw [hsearch] at hfound
    have hfound : compareAt _ entries i = .eq := hfound
    have hi := lt_length_of_compareAt_ne (by rw [hfound]; nofun)
    rw [compareAt_eq_cmp hi] at hfound
    cases hp : p entries[i] <;> simp [hp] at hfound
  | error n =>
    rw [hsearch] at hfound
    obtain ⟨hbelow, habove⟩ := hfound
    refine ⟨fun i hi => ?_, fun i hi e he => ?_⟩
    · have hbelow := hbelow i hi
      have hlength := lt_length_of_compareAt_ne (by rw [hbelow]; nofun)
      rw [compareAt_eq_cmp hlength, hlt] at hbelow
      exact ⟨entries[i], List.getElem?_eq_getElem hlength, hbelow⟩
    · have habove := habove i hi
      rw [compareAt, he] at habove
      exact (hgt e).1 habove

/-- The entries before it are those that the entries with the property begin with. -/
lemma take_partitionPoint (h : entries.Pairwise fun a b => p a = true ∨ p b = false) :
    entries.take (partitionPoint p entries) = entries.takeWhile p := by
  obtain ⟨hbelow, habove⟩ := partitionPoint_spec h
  have hfront : ∀ e ∈ entries.take (partitionPoint p entries), p e = true := by
    intro e he
    obtain ⟨i, hi, hentry⟩ := List.mem_take_iff_getElem.1 he
    obtain ⟨f, hf, hp⟩ := hbelow i (by omega)
    rw [List.getElem?_eq_getElem (by omega), hentry] at hf
    rwa [Option.some.inj hf]
  have hback : (entries.drop (partitionPoint p entries)).takeWhile p = [] := by
    cases hdrop : entries.drop (partitionPoint p entries) with
    | nil => rfl
    | cons e rest =>
      have he : entries[partitionPoint p entries]? = some e := by
        rw [← List.head?_drop, hdrop]
        rfl
      exact List.takeWhile_cons_of_neg (ne_true_of_eq_false (habove _ (Nat.le_refl _) e he))
  calc entries.take (partitionPoint p entries)
      = entries.take (partitionPoint p entries) ++
          (entries.drop (partitionPoint p entries)).takeWhile p := by
        rw [hback, List.append_nil]
    _ = (entries.take (partitionPoint p entries) ++
          entries.drop (partitionPoint p entries)).takeWhile p :=
        (List.takeWhile_append_of_pos hfront).symm
    _ = entries.takeWhile p := by rw [List.take_append_drop]

/-- What is under a key is found by halving. -/
theorem get?_eq_search (d : Directory α) (key : UInt32) :
    d.get? key =
      match search (fun e => compare e.1 key) d.entries with
      | .ok i => d.entries[i]?.map (·.2)
      | .error _ => none := by
  have horder : InOrder (fun e => compare e.1 key) d.entries := by
    refine d.ascending.imp fun {a b} hab => ?_
    rcases UInt32.lt_or_le a.1 key with hlt | hle
    · exact .inl (Std.compare_eq_lt.2 hlt)
    · exact .inr (Std.compare_eq_gt.2 (UInt32.lt_of_le_of_lt hle hab))
  have hfound := found_search horder
  cases hsearch : search (fun e => compare e.1 key) d.entries with
  | ok i =>
    rw [hsearch] at hfound
    have hfound : compareAt _ d.entries i = .eq := hfound
    have hi := lt_length_of_compareAt_ne (by rw [hfound]; nofun)
    rw [compareAt_eq_cmp hi] at hfound
    obtain rfl : d.entries[i].1 = key := Std.compare_eq_iff_eq.1 hfound
    dsimp only
    rw [List.getElem?_eq_getElem hi]
    exact get?_eq_some_iff.2 (List.getElem_mem hi)
  | error n =>
    rw [hsearch] at hfound
    obtain ⟨hbelow, habove⟩ := hfound
    refine Option.eq_none_iff_forall_ne_some.2 fun value hvalue => ?_
    obtain ⟨i, hi, hentry⟩ := List.mem_iff_getElem.1 (mem_of_get? hvalue)
    have hequal : compareAt (fun e : UInt32 × α => compare e.1 key) d.entries i = .eq := by
      rw [compareAt_eq_cmp hi, hentry]
      exact Std.compare_eq_iff_eq.2 rfl
    rcases Nat.lt_or_ge i n with hlt | hge
    · rw [hbelow i hlt] at hequal
      cases hequal
    · rw [habove i hge] at hequal
      cases hequal

/-- So is what is nearest below a key: it is the last before the partition point. -/
theorem floor?_eq_partitionPoint (d : Directory α) (key : UInt32) :
    d.floor? key =
      match partitionPoint (fun e => e.1 ≤ key) d.entries with
      | 0 => none
      | i + 1 => d.entries[i]? := by
  have horder : d.entries.Pairwise fun a b =>
      decide (a.1 ≤ key) = true ∨ decide (b.1 ≤ key) = false := by
    refine d.ascending.imp fun {a b} hab => ?_
    rw [decide_eq_true_iff, decide_eq_false_iff_not, UInt32.not_le]
    rcases UInt32.lt_or_le key a.1 with hlt | hle
    · exact .inr (UInt32.lt_trans hlt hab)
    · exact .inl hle
  rw [floor?, ← take_partitionPoint horder, List.getLast?_take]
  cases hpoint : partitionPoint (fun e => decide (e.1 ≤ key)) d.entries with
  | zero => rfl
  | succ i =>
    obtain ⟨e, he, -⟩ := (partitionPoint_spec horder).1 i (by omega)
    dsimp only
    rw [if_neg (Nat.succ_ne_zero i), Nat.succ_sub_one, he]
    rfl

end Directory
end RemoteDebugger
