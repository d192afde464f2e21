/-
# The registers

GDB reads the registers all at once or one by one, and writes them in both ways.  All four
commands go by one layout: sixteen words, eight registers of twelve bytes, and two words again.
What is read at once gives the general registers back when it is written, what is read of one
register are its bytes in the block of all, and what is written to a general register is read of
it (`registers_agree`).

A block is its registers one behind another (`flatten_pieces`), so the bytes at the place of a
register are the register (`place_encode`).
-/
import Mathlib.Algebra.BigOperators.Group.List.Basic
import RemoteDebugger.Proofs.Serial.Argument
import RemoteDebugger.Session.Serial

namespace RemoteDebugger
namespace RegisterBlock

/-- How many bytes each register has. -/
def widths : List Nat := List.replicate 16 4 ++ List.replicate 8 12 ++ List.replicate 2 4

/-- The bytes of a block at the place of a register, which is behind all registers of lower
numbers. -/
def place (block : List UInt8) (index : Nat) : List UInt8 :=
  (block.drop (widths.take index).sum).take (widths.getD index 0)

/-- The registers of a block, each with its own bytes. -/
def pieces (registers : Registers) (mode : UInt32) : List (List UInt8) :=
  registers.toList.map Word.littleEndian ++ List.replicate floatCount (List.replicate floatLength 0)
    ++ [List.replicate 4 0, Word.littleEndian mode]

variable (registers : Registers) (mode : UInt32)

lemma flatten_pieces : (pieces registers mode).flatten = encode registers mode := by
  simp only [pieces, List.flatten_append, List.flatten_replicate_replicate, List.flatten_cons,
    List.flatten_nil, List.append_nil, ← List.flatMap_def, encode, List.append_assoc]

lemma map_length_pieces : (pieces registers mode).map List.length = widths := by
  have hwords : (registers.toList.map Word.littleEndian).map List.length = List.replicate 16 4 := by
    rw [List.map_map]
    exact List.eq_replicate_iff.2 ⟨by simp, by simp⟩
  rw [pieces, List.map_append, List.map_append, hwords]
  rfl

lemma length_pieces : (pieces registers mode).length = 26 := by
  rw [← List.length_map List.length, map_length_pieces]
  rfl

lemma getElem?_pieces (index : Nat) : (pieces registers mode)[index]? =
    if h : index < registerCount then some (Word.littleEndian registers[index])
    else if index < floatStatusIndex then some (List.replicate floatLength 0)
    else if index = floatStatusIndex then some (List.replicate 4 0)
    else if index = modeIndex then some (Word.littleEndian mode)
    else none := by
  have hwords : (registers.toList.map Word.littleEndian).length = registerCount := by simp
  have hfloats : (List.replicate floatCount (List.replicate floatLength (0 : UInt8))).length =
      floatCount := List.length_replicate
  rw [pieces, List.append_assoc]
  split
  · next h =>
    rw [List.getElem?_append_left (by rwa [hwords]), List.getElem?_map,
      Vector.getElem?_toList, Vector.getElem?_eq_getElem h, Option.map_some]
  · next h =>
    -- behind the words, where the numbers go on from `registerCount`
    obtain ⟨k, rfl⟩ := Nat.exists_eq_add_of_le (Nat.le_of_not_lt h)
    rw [List.getElem?_append_right (by omega), hwords, Nat.add_sub_cancel_left]
    simp only [floatStatusIndex, modeIndex, Nat.add_lt_add_iff_left, Nat.add_assoc,
      Nat.add_left_cancel_iff]
    split
    · next hk => rw [List.getElem?_append_left (by rwa [hfloats]), List.getElem?_replicate_of_lt hk]
    · next hk =>
      obtain ⟨j, rfl⟩ := Nat.exists_eq_add_of_le (Nat.le_of_not_lt hk)
      rw [List.getElem?_append_right (by omega), hfloats, Nat.add_sub_cancel_left]
      match j with
      | 0 => rfl
      | 1 => rfl
      | j + 2 => simp

/-- The bytes at the place of a register are those of the register. -/
lemma place_encode {index : Nat} (h : index ≤ 25) :
    (pieces registers mode)[index]? = some (place (encode registers mode) index) := by
  have hlt : index < (pieces registers mode).length := by
    rw [length_pieces]
    omega
  have hwidth : widths.getD index 0 = (pieces registers mode)[index].length := by
    rw [← map_length_pieces registers mode, List.getD_eq_getElem?_getD, List.getElem?_map,
      List.getElem?_eq_getElem hlt, Option.map_some, Option.getD_some]
  -- behind the registers before it, the block goes on with the register itself
  rw [place, ← map_length_pieces registers mode, ← flatten_pieces, List.drop_sum_flatten,
    map_length_pieces, hwidth, List.drop_eq_getElem_cons hlt, List.flatten_cons, List.take_left,
    List.getElem?_eq_getElem hlt]

/-! ### Words of a block -/

lemma readWord_take (data : List UInt8) : readWord (data.take 4) = readWord data := by
  simp [readWord]

/-- Four bytes are those of the word that is read of them. -/
lemma littleEndian_readWord {data : List UInt8} (h : data.length = 4) :
    Word.littleEndian (readWord data) = data := by
  match data, h with
  | [b₀, b₁, b₂, b₃], _ => exact Word.littleEndian_ofBytes b₃ b₂ b₁ b₀

variable {i : Nat}

/-- The bytes at the place of a general register are those of its word. -/
lemma place_encode_of_lt (hi : i < registerCount) :
    place (encode registers mode) i = Word.littleEndian registers[i] := by
  have hplace := place_encode registers mode (Nat.le_trans (Nat.le_of_lt hi) (by decide))
  rw [getElem?_pieces, dif_pos hi] at hplace
  exact (Option.some.inj hplace).symm

/-- Words stand where a block is read for them. -/
lemma place_of_lt (block : List UInt8) (hi : i < registerCount) :
    place block i = (block.drop (4 * i)).take 4 := by
  have hwords : ∀ i : Fin registerCount, (widths.take i).sum = 4 * i ∧ widths.getD i 0 = 4 := by
    decide
  obtain ⟨hbefore, hwidth⟩ := hwords ⟨i, hi⟩
  rw [place, hbefore, hwidth]

lemma length_encode : (encode registers mode).length = 168 := by
  rw [← flatten_pieces, List.length_flatten, map_length_pieces]
  rfl

/-- All general registers are read back from a block. -/
lemma decode_encode (hi : i < registerCount) :
    (decode (encode registers mode))[i] = some registers[i] := by
  have hword : readWord ((encode registers mode).drop (4 * i)) = registers[i] := by
    rw [← readWord_take, ← place_of_lt _ hi, place_encode_of_lt registers mode hi,
      readWord_littleEndian]
  have hlt : i < 16 := hi
  have hlength : 4 * i + 4 ≤ (encode registers mode).length := by
    rw [length_encode]
    omega
  simp only [decode, Vector.getElem_ofFn]
  rw [if_pos hlength, hword]

end RegisterBlock

namespace Session

open Numeral (Spells)
open SerialCommand (parse)

/-! ### The commands -/

variable {index digits value : List UInt8} {i : Nat}

/-- A session with other registers in its machine. -/
def withRegisters (s : Session) (registers : Registers) : Session :=
  s.onMachine fun machine => { machine with registers }

/-- The block of the registers of the machine. -/
def registerBlock (s : Session) : List UInt8 :=
  RegisterBlock.encode s.scheduler.machine.registers s.scheduler.machine.mode

lemma readRegister_eq_getD (s : Session) (i : Nat) : s.readRegister i =
    ((RegisterBlock.pieces s.scheduler.machine.registers s.scheduler.machine.mode)[i]?.map
      Reply.hex).getD (.error badArguments) := by
  rw [RegisterBlock.getElem?_pieces, readRegister]
  split
  · rfl
  · split
    · rfl
    · split
      · rfl
      · split
        · rfl
        · rfl

lemma readRegister_eq_ite (s : Session) (i : Nat) : s.readRegister i =
    if i ≤ 25 then .hex (RegisterBlock.place s.registerBlock i) else .error badArguments := by
  rw [readRegister_eq_getD]
  split
  · next hi =>
    rw [RegisterBlock.place_encode _ _ hi]
    rfl
  · next hi =>
    rw [List.getElem?_eq_none]
    · rfl
    · rw [RegisterBlock.length_pieces]
      omega

/-- What is read of one register are its bytes in the block. -/
lemma executeSerial_readRegister (s : Session) (hindex : Spells 16 index i) :
    s.executeSerial (parse (0x70 :: index)) =
      (.reply (if i ≤ 25 then .hex (RegisterBlock.place s.registerBlock i)
        else .error badArguments), s) := by
  rw [SerialCommand.parse_readRegister (.plain hindex)]
  split
  · rw [executeSerial, readRegister_eq_ite]
  · -- a number that no word holds is refused before any register is looked for
    rw [if_neg (by omega)]
    rfl

/-- A block gives all general registers back. -/
lemma executeSerial_writeRegisters (s t : Session) :
    t.executeSerial (parse (0x47 :: Hex.encode s.registerBlock)) =
      (.reply .ok, t.withRegisters s.scheduler.machine.registers) := by
  have hvalues (old : Registers) : (Vector.ofFn fun i : Fin registerCount =>
      (RegisterBlock.decode s.registerBlock)[i].getD old[i]) = s.scheduler.machine.registers := by
    ext i hi
    rw [Vector.getElem_ofFn, Fin.getElem_fin, registerBlock, RegisterBlock.decode_encode,
      Option.getD_some]
  rw [SerialCommand.parse_writeRegisters (Hex.decode?_eq_some_iff.1 (Hex.decode?_encode _)),
    executeSerial, writeRegisters]
  simp only [hvalues, withRegisters]

lemma executeSerial_writeRegister (s : Session) (hindex : Spells 16 index i)
    (hi : i < registerCount) (hvalue : Hex.Writes digits value) :
    s.executeSerial (parse (0x50 :: (index ++ 0x3d :: digits))) =
      (.reply .ok, s.withRegisters
        (s.scheduler.machine.registers.setIfInBounds i (RegisterBlock.readWord value))) := by
  obtain ⟨w, rfl⟩ : ∃ w : UInt32, w.toNat = i :=
    ⟨.ofNat i, UInt32.toNat_ofNat_of_lt' (Nat.lt_trans hi (by decide))⟩
  rw [SerialCommand.parse_writeRegister (.plain hindex) hvalue.pairs, executeSerial, writeRegister,
    if_pos hi]
  rfl

/-- The bytes that are written to a general register are then its bytes in the block. -/
lemma place_registerBlock_setIfInBounds (s : Session) (hi : i < registerCount)
    (hlength : value.length = 4) :
    RegisterBlock.place (s.withRegisters (s.scheduler.machine.registers.setIfInBounds i
      (RegisterBlock.readWord value))).registerBlock i = value := by
  have hplace := RegisterBlock.place_encode_of_lt (s.scheduler.machine.registers.setIfInBounds i
    (RegisterBlock.readWord value)) s.scheduler.machine.mode hi
  rw [Vector.getElem_setIfInBounds_self, RegisterBlock.littleEndian_readWord hlength] at hplace
  exact hplace

/-- All commands for registers go by one layout.  What is read of all registers of a machine gives
the general ones back in any other; what is read of one are its bytes in what is read of all, and
numbers behind the last are refused; and a word that is written to a general register is read of
it, while the other registers stay. -/
theorem registers_agree (s t : Session) (hindex : Spells 16 index i) :
    s.executeSerial (parse (Text.utf8 "g")) = (.reply (.hex s.registerBlock), s) ∧
      t.executeSerial (parse (0x47 :: (Reply.hex s.registerBlock).payload)) =
        (.reply .ok, t.withRegisters s.scheduler.machine.registers) ∧
      s.executeSerial (parse (0x70 :: index)) =
        (.reply (if i ≤ 25 then .hex (RegisterBlock.place s.registerBlock i)
          else .error badArguments), s) ∧
      (i < 16 → ∀ digits value, Hex.Writes digits value → value.length = 4 →
        ∃ registers : Registers,
          s.executeSerial (parse (0x50 :: (index ++ 0x3d :: digits))) =
            (.reply .ok, s.withRegisters registers) ∧
          (s.withRegisters registers).executeSerial (parse (0x70 :: index)) =
            (.reply (.hex value), s.withRegisters registers) ∧
          (Reply.hex value).payload = digits.map Hex.lower ∧
          ∀ j (_ : j < registerCount), j ≠ i →
            registers[j] = s.scheduler.machine.registers[j]) := by
  refine ⟨?_, executeSerial_writeRegisters s t, executeSerial_readRegister s hindex, ?_⟩
  · have hparse : parse (Text.utf8 "g") = .readRegisters := by decide +kernel
    rw [hparse]
    rfl
  · intro hi digits value hvalue hlength
    refine ⟨_, executeSerial_writeRegister s hindex hi hvalue, ?_, hvalue.lower_eq.symm, ?_⟩
    · rw [executeSerial_readRegister _ hindex, if_pos (by omega),
        place_registerBlock_setIfInBounds s hi hlength]
    · intro j hj hne
      exact Vector.getElem_setIfInBounds_ne hj hne.symm

/-- Registers that are all different, and a number behind the last one. -/
theorem registers_agree_of_different_words :
    let machine : Machine :=
      { Machine.create 16 [] with
        registers := Vector.ofFn fun i => 0x01020304 + UInt32.ofNat i.val, mode := 0x80000013 }
    let s := create { machine } { symbolsAddress := 16 } .standard {} false
    let t := create { machine := Machine.create 4 [] } { symbolsAddress := 4 } .standard {} false
    Spells 16 (Text.utf8 "0F") 15 ∧ Spells 16 (Text.utf8 "1a") 26 ∧
      Hex.Writes (Text.utf8 "DEADbeef") [0xde, 0xad, 0xbe, 0xef] ∧
      t.executeSerial (parse (0x47 :: (Reply.hex s.registerBlock).payload)) =
        (.reply .ok, t.withRegisters machine.registers) ∧
      s.executeSerial (parse (Text.utf8 "p0F")) = (.reply (.hex [0x13, 0x03, 0x02, 0x01]), s) ∧
      s.executeSerial (parse (Text.utf8 "p1a")) = (.reply (.error badArguments), s) ∧
      ∃ registers : Registers,
        s.executeSerial (parse (Text.utf8 "P0F=DEADbeef")) =
          (.reply .ok, s.withRegisters registers) ∧
        (s.withRegisters registers).executeSerial (parse (Text.utf8 "p0F")) =
          (.reply (.hex [0xde, 0xad, 0xbe, 0xef]), s.withRegisters registers) ∧
        (Reply.hex [0xde, 0xad, 0xbe, 0xef]).payload = Text.utf8 "deadbeef" ∧
        ∀ j (_ : j < registerCount), j ≠ 15 → registers[j] = machine.registers[j] := by
  intro machine s t
  have hlast : Spells 16 (Text.utf8 "0F") 15 := by decide +kernel
  have hbehind : Spells 16 (Text.utf8 "1a") 26 := by decide +kernel
  have hvalue : Hex.Writes (Text.utf8 "DEADbeef") [0xde, 0xad, 0xbe, 0xef] := by decide +kernel
  have hregisters : s.scheduler.machine.registers = machine.registers := by decide +kernel
  obtain ⟨-, hrestore, hread, hwrite⟩ := registers_agree s t hlast
  rw [hregisters] at hrestore hwrite
  obtain ⟨-, -, hrefuse, -⟩ := registers_agree s t hbehind
  have hplace : RegisterBlock.place s.registerBlock 15 = [0x13, 0x03, 0x02, 0x01] := by
    decide +kernel
  rw [if_pos (by decide), hplace] at hread
  obtain ⟨registers, hok, hback, hpayload, hothers⟩ := hwrite (by decide) _ _ hvalue rfl
  exact ⟨hlast, hbehind, hvalue, hrestore, hread, hrefuse, registers, hok, hback,
    hpayload.trans (by decide +kernel), hothers⟩

end Session
end RemoteDebugger
