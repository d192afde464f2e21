/-
# Traps in memory

What the operations on breakpoints do to a table that fits memory: they keep the fit, and
plain memory changes by a write alone.  `Breakpoints.reapply` is the one that puts the
traps into memory that has none.
-/
import RemoteDebugger.Proofs.Breakpoint.Plain

namespace RemoteDebugger

namespace Memory

/-- A word is not changed by what is put at another aligned address. -/
lemma word?_setWord_of_ne {memory : Memory} {address word key : UInt32}
    (haddress : address.toNat % 4 = 0) (hkey : key.toNat % 4 = 0) (hne : key ≠ address) :
    (memory.setWord address word).word? key = memory.word? key := by
  apply word?_congr
  intro j hj
  apply byte?_setWord_of_base_ne haddress
  rw [Word.base_eq hkey (by omega) (by omega)]
  exact fun h => hne (UInt32.toNat_inj.1 h)

lemma add_four_le_of_word? {memory : Memory} {address word : UInt32}
    (h : memory.word? address = some word) : address.toNat + 4 ≤ memory.size := by
  by_contra hlt
  rw [word?_eq_none_iff.2 (by omega)] at h
  exact absurd h (by simp)

lemma exists_word? {memory : Memory} {address : UInt32} (h : address.toNat + 4 ≤ memory.size) :
    ∃ word, memory.word? address = some word := by
  rw [← Option.ne_none_iff_exists']
  intro hnone
  have := word?_eq_none_iff.1 hnone
  omega

/-- The byte of a word, seen from the byte. -/
lemma byte?_of_word? {memory : Memory} {address word : UInt32} {i : Nat}
    (h : memory.word? address = some word) (hbase : address.toNat = Word.base i) :
    memory.byte? i = some (Word.byteAt word (i % 4)) := by
  have hbyte := word?_eq_some_iff.1 h (i % 4) (by omega)
  rwa [show address.toNat + i % 4 = i by unfold Word.base at hbase; omega] at hbyte

/-! ### Words kept from another memory -/

/-- Memory in which the words at some addresses are those of an older memory. -/
def keepWords (keys : List UInt32) (old new : Memory) : Memory :=
  keys.foldl (fun memory key => ((old.word? key).map (memory.setWord key)).getD memory) new

lemma keepWords_cons {key word : UInt32} {old : Memory} (h : old.word? key = some word)
    (keys : List UInt32) (new : Memory) :
    keepWords (key :: keys) old new = keepWords keys old (new.setWord key word) := by
  rw [keepWords, List.foldl_cons, h]
  rfl

lemma size_keepWords (keys : List UInt32) (old new : Memory) :
    (keepWords keys old new).size = new.size := by
  simp only [keepWords]
  induction keys generalizing new with
  | nil => rfl
  | cons key rest ih =>
    rw [List.foldl_cons, ih]
    cases old.word? key with
    | none => rfl
    | some word => exact size_setWord new key word

lemma byte?_keepWords {keys : List UInt32} {old new : Memory} {i : Nat} (hi : i < new.size)
    (haligned : ∀ key ∈ keys, key.toNat % 4 = 0)
    (hold : ∀ key ∈ keys, key.toNat + 4 ≤ old.size) :
    (keepWords keys old new).byte? i =
      if ∃ key ∈ keys, key.toNat = Word.base i then old.byte? i else new.byte? i := by
  induction keys generalizing new with
  | nil => simp [keepWords]
  | cons key rest ih =>
    obtain ⟨hkey, hrest⟩ := List.forall_mem_cons.1 haligned
    obtain ⟨hkeyold, hrestold⟩ := List.forall_mem_cons.1 hold
    obtain ⟨word, hword⟩ := exists_word? hkeyold
    rw [keepWords_cons hword, ih (by rwa [size_setWord]) hrest hrestold]
    by_cases hbase : key.toNat = Word.base i
    · rw [byte?_setWord_of_base_eq hi hbase.symm, byte?_of_word? hword hbase, ite_self,
        if_pos ⟨key, List.mem_cons_self, hbase⟩]
    · rw [byte?_setWord_of_base_ne hkey (Ne.symm hbase)]
      refine if_congr ?_ rfl rfl
      simp only [List.mem_cons, or_and_right, exists_or, exists_eq_left, hbase, false_or]

end Memory

namespace Breakpoints

variable {t t' : Breakpoints} {m m' : Memory}

/-! ### Looking words up after an operation -/

lemma wordUnder?_insert (t : Breakpoints) (key word k : UInt32) :
    wordUnder? { saved := t.saved.insert key word } k =
      if key = k then some word else t.wordUnder? k :=
  Directory.get?_insert ..

lemma wordUnder?_erase (t : Breakpoints) (key k : UInt32) :
    wordUnder? { saved := t.saved.erase key } k = if key = k then none else t.wordUnder? k :=
  Directory.get?_erase ..

lemma wordUnder?_map (t : Breakpoints) (f : UInt32 → UInt32 → UInt32) (k : UInt32) :
    wordUnder? { saved := t.saved.map f } k = (t.wordUnder? k).map (f k) :=
  Directory.get?_map ..

lemma mem_keys_insert {key word k : UInt32} :
    k ∈ (t.saved.insert key word).keys ↔ k = key ∨ k ∈ t.saved.keys := by
  rw [Directory.mem_keys_iff, Directory.mem_keys_iff, Directory.get?_insert]
  split
  · next h => simp [h]
  · next h => simp [Ne.symm h]

lemma mem_keys_erase {key k : UInt32} :
    k ∈ (t.saved.erase key).keys ↔ k ≠ key ∧ k ∈ t.saved.keys := by
  rw [Directory.mem_keys_iff, Directory.mem_keys_iff, Directory.get?_erase]
  split
  · next h => simp [h]
  · next h => simp [Ne.symm h]

lemma Aligned.insert {key : UInt32} (ht : t.Aligned) (hkey : key.toNat % 4 = 0) (word : UInt32) :
    Aligned { saved := t.saved.insert key word } := by
  intro k hk
  rcases mem_keys_insert.1 hk with rfl | hk
  · exact hkey
  · exact ht k hk

lemma Aligned.erase (ht : t.Aligned) (key : UInt32) :
    Aligned { saved := t.saved.erase key } :=
  fun k hk => ht k (mem_keys_erase.1 hk).2

lemma Aligned.map (ht : t.Aligned) (f : UInt32 → UInt32 → UInt32) :
    Aligned { saved := t.saved.map f } := by
  intro k hk
  rw [Directory.keys_map] at hk
  exact ht k hk

/-! ### A table that fits -/

lemma installed_empty (m : Memory) : Installed {} m :=
  ⟨fun _ h => absurd h (by simp [Directory.keys]), fun _ h => absurd h (by simp [Directory.keys])⟩

lemma Installed.add_four_le (h : t.Installed m) {key : UInt32} (hkey : key ∈ t.saved.keys) :
    key.toNat + 4 ≤ m.size :=
  Memory.add_four_le_of_word? (h.trapped key hkey)

/-- To see that a table fits, look at the bytes of the traps. -/
lemma installed_of_byte? (ht : t.Aligned) (hsize : ∀ key ∈ t.saved.keys, key.toNat + 4 ≤ m.size)
    (h : ∀ i < m.size, ∀ word, t.wordOver? i = some word →
      m.byte? i = some (Word.byteAt trapWord (i % 4))) : t.Installed m := by
  refine ⟨ht, fun key hkey => Memory.word?_eq_some_iff.2 fun j hj => ?_⟩
  have haligned := ht key hkey
  have hlt := hsize key hkey
  obtain ⟨word, hword⟩ := mem_keys_iff.1 hkey
  have hbase : Word.base (key.toNat + j) = key.toNat :=
    Word.base_eq haligned (by omega) (by omega)
  rw [h (key.toNat + j) (by omega) word (by rw [wordOver?_of_base hbase.symm, hword])]
  congr 2
  omega

/-- A word of plain memory is the one under a trap, or else the one in memory. -/
lemma Installed.word?_plain (ht : t.Installed m) {key : UInt32} (hkey : key.toNat % 4 = 0) :
    (t.plain m).word? key = (t.wordUnder? key).or (m.word? key) := by
  have hover (j : Nat) (hj : j < 4) : t.wordOver? (key.toNat + j) = t.wordUnder? key :=
    wordOver?_of_base (Word.base_eq hkey (by omega) (by omega)).symm
  rcases hword : t.wordUnder? key with _ | word
  · refine Memory.word?_congr fun j hj => ?_
    by_cases hi : key.toNat + j < m.size
    · rw [byte?_plain ht.aligned m hi, hover j hj, hword]
      rfl
    · rw [Memory.byte?_eq_none_iff.2 (by rw [size_plain]; omega),
        Memory.byte?_eq_none_iff.2 (by omega)]
  · refine Memory.word?_eq_some_iff.2 fun j hj => ?_
    have hsize := ht.add_four_le (mem_keys_iff.2 ⟨word, hword⟩)
    rw [byte?_plain ht.aligned m (by omega), hover j hj, hword]
    change some (Word.byteAt word ((key.toNat + j) % 4)) = _
    congr 2
    omega

/-- The addresses of the breakpoints and plain memory determine the words that are kept, and
memory with the traps in it. -/
lemma Installed.eq_of_plain (ht : t.Installed m) (ht' : t'.Installed m')
    (hcontains : ∀ key, t'.contains key = true ↔ t.contains key = true)
    (hplain : t'.plain m' = t.plain m) : t' = t ∧ m' = m := by
  have hkeys (key : UInt32) : key ∈ t'.saved.keys ↔ key ∈ t.saved.keys := by
    rw [← contains_iff, ← contains_iff, hcontains]
  have hunder (key : UInt32) : t'.saved.get? key = t.saved.get? key := by
    by_cases hkey : key ∈ t.saved.keys
    · -- the word that is kept is the one in plain memory
      obtain ⟨word, hword⟩ := mem_keys_iff.1 hkey
      obtain ⟨word', hword'⟩ := mem_keys_iff.1 ((hkeys key).2 hkey)
      have hsame := congrArg (Memory.word? · key) hplain
      simp only [ht.word?_plain (ht.aligned key hkey), ht'.word?_plain (ht.aligned key hkey), hword,
        hword', Option.some_or] at hsame
      exact hword'.trans (hsame.trans hword.symm)
    · have hnone : key ∉ t'.saved.keys := fun h => hkey ((hkeys key).1 h)
      rw [Directory.mem_keys_iff, not_exists, ← Option.eq_none_iff_forall_ne_some] at hkey hnone
      rw [hkey, hnone]
  obtain rfl : t' = t := by
    cases t
    cases t'
    exact congrArg _ (Directory.ext_get? hunder)
  refine ⟨rfl, Memory.ext_byte? fun i => ?_⟩
  have hsize : m'.size = m.size := by rw [← size_plain t' m', hplain, size_plain]
  by_cases hi : i < m.size
  · cases hover : t'.wordOver? i with
    | none =>
      have hbyte := congrArg (Memory.byte? · i) hplain
      rwa [byte?_plain ht.aligned m' (hsize ▸ hi), byte?_plain ht.aligned m hi, hover] at hbyte
    | some word =>
      -- in both there is a trap over the byte
      obtain ⟨key, hbase, hword⟩ := exists_of_wordOver? hover
      have hkey := mem_keys_iff.2 ⟨word, hword⟩
      rw [Memory.byte?_of_word? (ht.trapped key hkey) hbase,
        Memory.byte?_of_word? (ht'.trapped key hkey) hbase]
  · rw [Memory.byte?_eq_none_iff.2 (by omega), Memory.byte?_eq_none_iff.2 (by omega)]

/-! ### Setting a breakpoint -/

lemma add_eq_some {key : UInt32} (h : t.add key m = .ok (some (t', m'))) :
    key.toNat % 4 = 0 ∧ t.wordUnder? key = none ∧ ∃ word, m.word? key = some word ∧
      t' = { saved := t.saved.insert key word } ∧ m' = m.setWord key trapWord := by
  simp only [add] at h
  split at h
  · cases h
  · next haligned =>
    split at h
    · cases h
    · next hcontains =>
      split at h
      · cases h
      · next word hword =>
        simp only [Except.ok.injEq, Option.some.injEq, Prod.mk.injEq] at h
        rw [Bool.not_eq_true', Bool.not_eq_false, Word.aligned_iff] at haligned
        rw [contains, Directory.contains, Bool.not_eq_true, Option.isSome_eq_false_iff,
          Option.isNone_iff_eq_none] at hcontains
        exact ⟨haligned, hcontains, word, Memory.readWord_eq_ok_iff.1 hword, h.1.symm, h.2.symm⟩

/-- At a word of memory without a breakpoint one can be set. -/
lemma exists_add {key : UInt32} (haligned : key.toNat % 4 = 0) (hnew : t.contains key = false)
    (hle : key.toNat + 4 ≤ m.size) : ∃ t' m', t.add key m = .ok (some (t', m')) := by
  obtain ⟨word, hword⟩ := Memory.exists_word? hle
  rw [add, Word.aligned_iff.2 haligned, hnew, Memory.readWord_eq_ok_iff.2 hword]
  exact ⟨_, _, rfl⟩

/-- There is nothing to set only if there is a breakpoint. -/
lemma contains_of_add {key : UInt32} (h : t.add key m = .ok none) : t.contains key = true := by
  simp only [add] at h
  split at h
  · cases h
  · split at h
    · next hcontains => exact hcontains
    · split at h
      · cases h
      · cases h

lemma Installed.add (ht : t.Installed m) {key : UInt32}
    (h : t.add key m = .ok (some (t', m'))) : t'.Installed m' := by
  obtain ⟨hkey, -, word, hword, rfl, rfl⟩ := add_eq_some h
  refine ⟨ht.aligned.insert hkey word, fun k hk => ?_⟩
  by_cases hk' : k = key
  · subst hk'
    exact Memory.word?_setWord_self (Memory.add_four_le_of_word? hword)
  · rw [Memory.word?_setWord_of_ne hkey (ht.aligned.insert hkey word k hk) hk']
    exact ht.trapped k ((mem_keys_insert.1 hk).resolve_left hk')

lemma plain_of_add (ht : t.Aligned) {key : UInt32} (h : t.add key m = .ok (some (t', m'))) :
    t'.plain m' = t.plain m := by
  obtain ⟨hkey, hnone, word, hword, rfl, rfl⟩ := add_eq_some h
  refine plain_eq_of_byte? (ht.insert hkey word) (by simp) fun i hi => ?_
  rw [Memory.size_setWord] at hi
  rw [byte?_plain ht m hi]
  rcases wordOver?_cases i with ⟨k, hk, hover⟩ | ⟨hbase, hover⟩
  · rw [hover, hover, wordUnder?_insert]
    by_cases hkk : key = k
    · -- the table now stands for the word that the trap has replaced
      subst hkk
      rw [if_pos rfl, hnone, Memory.byte?_of_word? hword hk]
      rfl
    · rw [if_neg hkk, Memory.byte?_setWord_of_base_ne hkey]
      exact fun heq => hkk (UInt32.toNat_inj.1 (heq.symm.trans hk.symm))
  · rw [hover, hover, Memory.byte?_setWord_of_base_ne hkey (hbase key).symm]

lemma contains_add {key : UInt32} (h : t.add key m = .ok (some (t', m'))) (k : UInt32) :
    t'.contains k = true ↔ k = key ∨ t.contains k = true := by
  obtain ⟨-, -, word, -, rfl, -⟩ := add_eq_some h
  rw [contains_iff, contains_iff, mem_keys_insert]

/-! ### Taking a breakpoint away -/

lemma remove_eq_ok {key : UInt32} (h : t.remove key m = .ok (t', m')) :
    ∃ word, t.wordUnder? key = some word ∧ t' = { saved := t.saved.erase key } ∧
      m' = m.setWord key word := by
  simp only [remove] at h
  split at h
  · cases h
  · next word hword =>
    simp only [Except.ok.injEq, Prod.mk.injEq] at h
    exact ⟨word, hword, h.1.symm, h.2.symm⟩

/-- A breakpoint that is there can be taken away. -/
lemma exists_remove {key : UInt32} (h : key ∈ t.saved.keys) (m : Memory) :
    ∃ t' m', t.remove key m = .ok (t', m') := by
  obtain ⟨word, hword⟩ := mem_keys_iff.1 h
  exact ⟨_, _, by rw [remove, hword]⟩

lemma Installed.remove (ht : t.Installed m) {key : UInt32}
    (h : t.remove key m = .ok (t', m')) : t'.Installed m' := by
  obtain ⟨word, hword, rfl, rfl⟩ := remove_eq_ok h
  refine ⟨ht.aligned.erase key, fun k hk => ?_⟩
  obtain ⟨hne, hmem⟩ := mem_keys_erase.1 hk
  rw [Memory.word?_setWord_of_ne (ht.aligned key (mem_keys_iff.2 ⟨word, hword⟩))
    (ht.aligned k hmem) hne]
  exact ht.trapped k hmem

lemma plain_of_remove (ht : t.Aligned) {key : UInt32} (h : t.remove key m = .ok (t', m')) :
    t'.plain m' = t.plain m := by
  obtain ⟨word, hword, rfl, rfl⟩ := remove_eq_ok h
  have hkey := ht key (mem_keys_iff.2 ⟨word, hword⟩)
  refine plain_eq_of_byte? (ht.erase key) (by simp) fun i hi => ?_
  rw [Memory.size_setWord] at hi
  rw [byte?_plain ht m hi]
  rcases wordOver?_cases i with ⟨k, hk, hover⟩ | ⟨hbase, hover⟩
  · rw [hover, hover, wordUnder?_erase]
    by_cases hkk : key = k
    · subst hkk
      rw [if_pos rfl, hword, Memory.byte?_setWord_of_base_eq hi hk.symm]
      rfl
    · rw [if_neg hkk, Memory.byte?_setWord_of_base_ne hkey]
      exact fun heq => hkk (UInt32.toNat_inj.1 (heq.symm.trans hk.symm))
  · rw [hover, hover, Memory.byte?_setWord_of_base_ne hkey (hbase key).symm]

lemma contains_remove {key : UInt32} (h : t.remove key m = .ok (t', m')) (k : UInt32) :
    t'.contains k = true ↔ k ≠ key ∧ t.contains k = true := by
  obtain ⟨word, -, rfl, -⟩ := remove_eq_ok h
  rw [contains_iff, contains_iff, mem_keys_erase]

/-! ### Executing the word under a trap -/

/-- Putting a word under its trap in place and the trap back again leaves memory as it was. -/
lemma Installed.setWord_setWord_trap (ht : t.Installed m) {key word : UInt32}
    (hword : t.wordUnder? key = some word) : (m.setWord key word).setWord key trapWord = m := by
  have hkey := mem_keys_iff.2 ⟨word, hword⟩
  apply Memory.ext_byte?
  intro i
  by_cases hi : i < m.size
  · by_cases hbase : Word.base i = key.toNat
    · rw [Memory.byte?_setWord_of_base_eq (by simpa using hi) hbase,
        Memory.byte?_of_word? (ht.trapped key hkey) hbase.symm]
    · have haligned := ht.aligned key hkey
      rw [Memory.byte?_setWord_of_base_ne haligned hbase,
        Memory.byte?_setWord_of_base_ne haligned hbase]
  · rw [Memory.byte?_eq_none_iff.2 (by simp only [Memory.size_setWord]; omega),
      Memory.byte?_eq_none_iff.2 (by omega)]

/-! ### Putting traps into memory -/

@[simp] lemma size_trapAll (keys : List UInt32) (m : Memory) : (trapAll keys m).size = m.size := by
  simp only [trapAll]
  induction keys generalizing m with
  | nil => rfl
  | cons key rest ih => rw [List.foldl_cons, ih, Memory.size_setWord]

lemma byte?_trapAll_of_forall_ne {keys : List UInt32} (haligned : ∀ key ∈ keys, key.toNat % 4 = 0)
    {i : Nat} (h : ∀ key ∈ keys, key.toNat ≠ Word.base i) (m : Memory) :
    (trapAll keys m).byte? i = m.byte? i := by
  simp only [trapAll]
  induction keys generalizing m with
  | nil => rfl
  | cons key rest ih =>
    rw [List.foldl_cons, ih (fun k hk => haligned k (List.mem_cons_of_mem _ hk))
      (fun k hk => h k (List.mem_cons_of_mem _ hk)),
      Memory.byte?_setWord_of_base_ne (haligned key List.mem_cons_self)
        (h key List.mem_cons_self).symm]

/-- A byte that is a trap's is one still after other traps. -/
lemma byte?_trapAll_of_trap {keys : List UInt32} {i : Nat} {m : Memory} (hi : i < m.size)
    (haligned : ∀ key ∈ keys, key.toNat % 4 = 0)
    (h : m.byte? i = some (Word.byteAt trapWord (i % 4))) :
    (trapAll keys m).byte? i = some (Word.byteAt trapWord (i % 4)) := by
  simp only [trapAll]
  induction keys generalizing m with
  | nil => exact h
  | cons key rest ih =>
    have hrest := fun k hk => haligned k (List.mem_cons_of_mem key hk)
    refine ih (by simpa using hi) hrest ?_
    by_cases hbase : Word.base i = key.toNat
    · exact Memory.byte?_setWord_of_base_eq hi hbase
    · rw [Memory.byte?_setWord_of_base_ne (haligned key List.mem_cons_self) hbase, h]

lemma byte?_trapAll_of_mem {keys : List UInt32} (haligned : ∀ key ∈ keys, key.toNat % 4 = 0)
    {key : UInt32} (hkey : key ∈ keys) {i : Nat} (hbase : key.toNat = Word.base i) {m : Memory}
    (hi : i < m.size) : (trapAll keys m).byte? i = some (Word.byteAt trapWord (i % 4)) := by
  induction keys generalizing m with
  | nil => exact absurd hkey (by simp)
  | cons k rest ih =>
    have hrest := fun k' hk' => haligned k' (List.mem_cons_of_mem k hk')
    change (trapAll rest (m.setWord k trapWord)).byte? i = _
    rcases List.mem_cons.1 hkey with rfl | hkey
    · exact byte?_trapAll_of_trap (by simpa using hi) hrest
        (Memory.byte?_setWord_of_base_eq hi hbase.symm)
    · exact ih hrest hkey (by simpa using hi)

/-! ### New memory -/

@[simp] lemma size_reapply (t : Breakpoints) (m : Memory) : (t.reapply m).size = m.size :=
  size_trapAll ..

lemma installed_reapply (ht : t.Aligned) (hsize : ∀ key ∈ t.saved.keys, key.toNat + 4 ≤ m.size) :
    t.Installed (t.reapply m) := by
  refine installed_of_byte? ht (by simpa using hsize) fun i hi word hword => ?_
  rw [size_reapply] at hi
  obtain ⟨key, hbase, hkey⟩ := exists_of_wordOver? hword
  exact byte?_trapAll_of_mem ht (mem_keys_iff.2 ⟨word, hkey⟩) hbase hi

/-- Behind the traps the new memory is seen as it is, and under them the words that were
there before. -/
lemma byte?_plain_reapply (ht : t.Aligned) {i : Nat} (hi : i < m.size) :
    (t.plain (t.reapply m)).byte? i =
      ((t.wordOver? i).map (Word.byteAt · (i % 4))).or (m.byte? i) := by
  rw [byte?_plain ht _ (by simpa using hi)]
  rcases hover : t.wordOver? i with _ | word
  · rw [reapply, byte?_trapAll_of_forall_ne ht fun key hkey => ne_base_of_wordOver? hover hkey]
  · rfl

/-- Plain memory after the traps have been put into new memory: the new memory, with the
words under the traps kept from the old. -/
lemma plain_reapply (ht : t.Installed m) (hsize : m'.size = m.size) :
    t.plain (t.reapply m') = Memory.keepWords t.saved.keys (t.plain m) m' := by
  have hfits : ∀ key ∈ t.saved.keys, key.toNat + 4 ≤ (t.plain m).size := fun key hkey => by
    rw [size_plain]
    exact ht.add_four_le hkey
  apply Memory.ext_byte?
  intro i
  by_cases hi : i < m'.size
  swap
  · rw [Memory.byte?_eq_none_iff.2 (by simp only [size_plain, size_reapply]; omega),
      Memory.byte?_eq_none_iff.2 (by rw [Memory.size_keepWords]; omega)]
  rw [byte?_plain_reapply ht.aligned hi, Memory.byte?_keepWords hi ht.aligned hfits,
    byte?_plain ht.aligned m (hsize ▸ hi)]
  rcases hover : t.wordOver? i with _ | word
  · rw [if_neg]
    · rfl
    · rintro ⟨key, hkey, hbase⟩
      exact ne_base_of_wordOver? hover hkey hbase
  · obtain ⟨key, hbase, hword⟩ := exists_of_wordOver? hover
    rw [if_pos]
    · rfl
    · exact ⟨key, mem_keys_iff.2 ⟨word, hword⟩, hbase⟩

/-! ### Writing -/

lemma write_eq_ok {address : UInt32} {data : List UInt8}
    (h : t.write address data m = .ok (t', m')) :
    ∃ written, m.write address data = .ok written ∧
      t' = { saved := t.saved.map fun key word =>
        rewritten written address.toNat (address.toNat + data.length) key.toNat word } ∧
      m' = trapAll (t.inRange address.toNat (address.toNat + data.length)) written := by
  simp only [write] at h
  split at h
  · cases h
  · next written hwritten =>
    simp only [Except.ok.injEq, Prod.mk.injEq] at h
    exact ⟨written, hwritten, h.1.symm, h.2.symm⟩

lemma size_of_write {address : UInt32} {data : List UInt8}
    (h : t.write address data m = .ok (t', m')) : m'.size = m.size := by
  obtain ⟨written, hwritten, -, rfl⟩ := write_eq_ok h
  rw [size_trapAll, Memory.size_of_write hwritten]

lemma inRange_subset {start finish : Nat} {key : UInt32} (h : key ∈ t.inRange start finish) :
    key ∈ t.saved.keys :=
  (List.mem_filter.1 h).1

/-- A written byte of a word under a trap is the one in memory, all others are kept. -/
lemma byteAt_rewritten (m : Memory) (start finish address : Nat) (word : UInt32) {j : Nat}
    (hj : j < 4) :
    Word.byteAt (rewritten m start finish address word) j =
      if start ≤ address + j ∧ address + j < finish then
        (m.byte? (address + j)).getD (Word.byteAt word j)
      else Word.byteAt word j :=
  Word.byteAt_ofBytes (fun j =>
    if start ≤ address + j ∧ address + j < finish then
      (m.byte? (address + j)).getD (Word.byteAt word j)
    else Word.byteAt word j) hj

lemma Installed.write (ht : t.Installed m) {address : UInt32} {data : List UInt8}
    (h : t.write address data m = .ok (t', m')) : t'.Installed m' := by
  obtain ⟨written, hwritten, rfl, rfl⟩ := write_eq_ok h
  have hsize := Memory.size_of_write hwritten
  have hrange : ∀ key ∈ t.inRange address.toNat (address.toNat + data.length),
      key.toNat % 4 = 0 := fun key hkey => ht.aligned key (inRange_subset hkey)
  refine installed_of_byte? (ht.aligned.map _) ?_ fun i hi word hword => ?_
  · intro key hkey
    rw [Directory.keys_map] at hkey
    rw [size_trapAll, hsize]
    exact ht.add_four_le hkey
  · rw [size_trapAll] at hi
    obtain ⟨key, hkey, hword⟩ := exists_of_wordOver? hword
    rw [wordUnder?_map] at hword
    obtain ⟨old, hold, -⟩ := Option.map_eq_some_iff.1 hword
    have hmem := mem_keys_iff.2 ⟨old, hold⟩
    by_cases hin : key ∈ t.inRange address.toNat (address.toNat + data.length)
    · exact byte?_trapAll_of_mem hrange hin hkey hi
    · -- out of the range the write has not touched the trap
      refine byte?_trapAll_of_trap hi hrange ?_
      rw [Memory.byte?_of_write hwritten, if_neg, Memory.byte?_of_word? (ht.trapped key hmem) hkey]
      rintro ⟨h₁, h₂⟩
      refine hin (List.mem_filter.2 ⟨hmem, ?_⟩)
      simp only [Bool.and_eq_true, decide_eq_true_eq]
      simp only [Word.base] at hkey ⊢
      omega

lemma plain_of_write (ht : t.Aligned) {address : UInt32} {data : List UInt8}
    (h : t.write address data m = .ok (t', m')) :
    (t.plain m).write address data = .ok (t'.plain m') := by
  obtain ⟨written, hwritten, rfl, rfl⟩ := write_eq_ok h
  have hrange : ∀ key ∈ t.inRange address.toNat (address.toNat + data.length),
      key.toNat % 4 = 0 := fun key hkey => ht key (inRange_subset hkey)
  have hle : address.toNat + data.length ≤ m.size := by
    by_contra hlt
    rw [Memory.write, if_neg hlt] at hwritten
    cases hwritten
  have hplain : (t.plain m).write address data =
      .ok { bytes := Memory.store (t.plain m).bytes address.toNat data } := by
    rw [Memory.write, if_pos (by rw [size_plain]; exact hle)]
  have hsize := Memory.size_of_write hwritten
  rw [hplain]
  refine congrArg Except.ok (plain_eq_of_byte? (ht.map _) ?_ fun i hi => ?_).symm
  · rw [size_trapAll, hsize, ← size_plain t m]
    exact Memory.size_of_write hplain
  · rw [size_trapAll, hsize] at hi
    rw [Memory.byte?_of_write hplain, byte?_plain ht m hi]
    rcases wordOver?_cases i with ⟨key, hkey, hover⟩ | ⟨-, hover⟩
    · rw [hover, hover, wordUnder?_map]
      rcases hword : t.wordUnder? key with _ | word
      · have hnone : t.wordOver? i = none := (hover t).trans hword
        rw [byte?_trapAll_of_forall_ne hrange fun k hk =>
          ne_base_of_wordOver? hnone (inRange_subset hk), Memory.byte?_of_write hwritten]
        rfl
      · -- of the word under a trap the write reaches some bytes
        have hi' : key.toNat + i % 4 = i := by unfold Word.base at hkey; omega
        simp only [Option.map_some, Option.some_or]
        rw [byteAt_rewritten _ _ _ _ _ (by omega), hi', Memory.byte?_of_write hwritten]
        split
        · next hin =>
          rw [List.getElem?_eq_getElem (by omega)]
          rfl
        · rfl
    · rw [hover, hover, byte?_trapAll_of_forall_ne hrange fun k hk =>
        ne_base_of_wordOver? (hover t) (inRange_subset hk), Memory.byte?_of_write hwritten]
      rfl

end Breakpoints
end RemoteDebugger
