/-
# Streams of frames

A stream of frames is read in step: after any number of its pieces the payloads handed out
are those of the frames that lie wholly within the pieces, and what the reader keeps is the
frame that is not complete yet.  The pieces may be taken as one, and then this is an
induction on the frames.

A length that is refused may stand behind the frames.  The piece that completes it brings
its refusal and nothing else, also if it completes frames before it, and so does every
later piece.
-/
import Mathlib.Data.List.Infix
import RemoteDebugger.Proofs.Wire.Piece

namespace RemoteDebugger
namespace Frame

@[simp] lemma length_wrap (payload : List UInt8) :
    (wrap payload).length = payload.length + 4 := by
  rw [wrap, List.length_append, Message.length_count, Nat.add_comm]

/-- The payloads of the frames that lie wholly within the first bytes of a stream of frames. -/
def within : List (List UInt8) → Nat → List (List UInt8)
  | [], _ => []
  | payload :: rest, n =>
    if (wrap payload).length ≤ n then payload :: within rest (n - (wrap payload).length) else []

/-- How many of the first bytes of a stream lie behind the last frame that is complete. -/
def unfinished (payloads : List (List UInt8)) (n : Nat) : Nat :=
  n - ((within payloads n).flatMap wrap).length

/-- How many of the bytes behind the last complete frame are kept: all of them until the next
length is complete, which then is no longer among them. -/
def kept (n : Nat) : Nat :=
  if n < 4 then n else n - 4

variable {payloads : List (List UInt8)}

/-- All frames lie within so many bytes if and only if there are enough of them. -/
lemma within_eq_self_iff {n : Nat} :
    within payloads n = payloads ↔ (payloads.flatMap wrap).length ≤ n := by
  induction payloads generalizing n with
  | nil => simp [within]
  | cons payload rest ih =>
    rw [within, List.flatMap_cons, List.length_append]
    split
    · rw [List.cons.injEq, and_iff_right rfl, ih]
      omega
    · refine iff_of_false (List.cons_ne_nil payload rest).symm ?_
      omega

namespace Reader

lemma toNat_length {payload : List UInt8} (h : payload.length ≤ maxFrameLength) :
    (UInt32.ofNat payload.length).toNat = payload.length := by
  refine Message.toNat_count (Nat.lt_of_le_of_lt h ?_)
  decide

lemma readLength_wrap_append {payload : List UInt8} (h : payload.length ≤ maxFrameLength)
    (rest : List UInt8) :
    readLength (wrap payload ++ rest) = (readLength rest).cons payload := by
  have hle : payload.length ≤ (payload ++ rest).length := by
    rw [List.length_append]
    omega
  rw [wrap, Message.count, List.append_assoc, readLength_bigEndian, toNat_length h,
    if_neg (by omega), readPayload_of_le hle, List.drop_left, List.take_left]

/-- Of a frame that is not complete nothing is handed out. -/
lemma readLength_of_part {payload bytes : List UInt8} (h : payload.length ≤ maxFrameLength)
    (hstart : bytes <+: wrap payload) (hlength : bytes.length < (wrap payload).length) :
    (readLength bytes).payloads = .ok [] ∧
      (readLength bytes).reader.pending = kept bytes.length := by
  rcases Nat.lt_or_ge bytes.length 4 with hshort | hlong
  · rw [readLength_of_short hshort, kept, if_pos hshort]
    exact ⟨rfl, rfl⟩
  · obtain ⟨more, hmore⟩ := hstart
    obtain ⟨length, part, rfl⟩ := exists_bigEndian hlong
    rw [List.append_assoc, wrap, Message.count] at hmore
    obtain ⟨hcount, -⟩ := List.append_inj hmore rfl
    -- the length is the one of the frame, and counts more bytes than there are behind it
    have hpart : part.length < payload.length := by
      rw [length_wrap, List.length_append, Word.length_bigEndian] at hlength
      omega
    rw [hcount, readLength_bigEndian, toNat_length h, if_neg (by omega), readPayload_of_lt hpart]
    refine ⟨rfl, ?_⟩
    rw [kept, List.length_append, Word.length_bigEndian, if_neg (by omega)]
    exact (Nat.add_sub_cancel_left 4 part.length).symm

/-- The first bytes of a stream of frames are read as the frames that lie wholly within them.
What stands behind the frames has no say as long as it is shorter than a length. -/
lemma readLength_of_start {bytes tail : List UInt8}
    (hfit : ∀ payload ∈ payloads, payload.length ≤ maxFrameLength)
    (hstart : bytes <+: payloads.flatMap wrap ++ tail)
    (hlength : bytes.length < (payloads.flatMap wrap).length + 4) :
    (readLength bytes).payloads = .ok (within payloads bytes.length) ∧
      (readLength bytes).reader.pending = kept (unfinished payloads bytes.length) := by
  induction payloads generalizing bytes with
  | nil =>
    have hshort : bytes.length < 4 := by simpa using hlength
    rw [readLength_of_short hshort, unfinished, within, kept, if_pos (by simpa using hshort)]
    exact ⟨rfl, rfl⟩
  | cons payload rest ih =>
    obtain ⟨hpayload, hrest⟩ := List.forall_mem_cons.1 hfit
    rw [List.flatMap_cons, List.append_assoc] at hstart
    have hframe := List.prefix_append (wrap payload) (rest.flatMap wrap ++ tail)
    rcases Nat.lt_or_ge bytes.length (wrap payload).length with hpart | hwhole
    · -- a part of a frame does not reach what stands behind the frames
      have hbytes := List.prefix_of_prefix_length_le hstart hframe (Nat.le_of_lt hpart)
      rw [unfinished, within, if_neg (by omega)]
      exact readLength_of_part hpayload hbytes hpart
    · -- the bytes behind the first frame are the first of what stands behind it
      obtain ⟨bytes, rfl⟩ := List.prefix_of_prefix_length_le hframe hstart hwhole
      have hbehind : (wrap payload ++ bytes).length - (wrap payload).length = bytes.length := by
        rw [List.length_append, Nat.add_sub_cancel_left]
      rw [List.flatMap_cons, List.length_append, List.length_append] at hlength
      obtain ⟨hpayloads, hpending⟩ := ih hrest
        ((List.prefix_append_right_inj (wrap payload)).1 hstart) (by omega)
      rw [readLength_wrap_append hpayload, unfinished, within, if_pos hwhole, hbehind]
      refine ⟨?_, ?_⟩
      · rw [Outcome.cons, hpayloads]
        rfl
      · rw [List.flatMap_cons, List.length_append, List.length_append, Nat.add_sub_add_left]
        exact hpending

/-- The same in pieces. -/
lemma pushAll_of_start {pieces : List (List UInt8)} {tail : List UInt8}
    (hfit : ∀ payload ∈ payloads, payload.length ≤ maxFrameLength)
    (hstart : pieces.flatten <+: payloads.flatMap wrap ++ tail)
    (hlength : pieces.flatten.length < (payloads.flatMap wrap).length + 4) :
    (∃ handed : List (List (List UInt8)), (fresh.pushAll pieces).1 = handed.map .ok ∧
      handed.flatten = within payloads pieces.flatten.length) ∧
      (fresh.pushAll pieces).2 = (readLength pieces.flatten).reader := by
  refine pushAll_eq_push settled_fresh ?_
  rw [push_fresh]
  exact (readLength_of_start hfit hstart hlength).1

/-- A stream of frames is read in step, wherever it is cut.  After any number of its pieces the
payloads handed out are those of the frames that are complete, none has been refused, and what
is kept is the unfinished frame; at the end nothing is. -/
theorem pushAll_take_of_frames {pieces : List (List UInt8)}
    (hfit : ∀ payload ∈ payloads, payload.length ≤ maxFrameLength)
    (hcut : pieces.flatten = payloads.flatMap wrap) (k : Nat) :
    let n := (pieces.take k).flatten.length
    let (results, reader) := fresh.pushAll (pieces.take k)
    (∃ handed : List (List (List UInt8)), results = handed.map .ok ∧
      handed.flatten = within payloads n) ∧
      reader.pending = kept (unfinished payloads n) ∧
      (pieces.length ≤ k → within payloads n = payloads ∧ reader.pending = 0) := by
  intro n
  have hstart : (pieces.take k).flatten <+: payloads.flatMap wrap ++ [] := by
    rw [List.append_nil, ← hcut]
    exact List.IsPrefix.flatten (List.take_prefix k pieces)
  have hlength : (pieces.take k).flatten.length < (payloads.flatMap wrap).length + 4 := by
    have hle := hstart.length_le
    rw [List.append_nil] at hle
    omega
  obtain ⟨hresults, hreader⟩ := pushAll_of_start hfit hstart hlength
  have hpending : (fresh.pushAll (pieces.take k)).2.pending = kept (unfinished payloads n) := by
    rw [hreader]
    exact (readLength_of_start hfit hstart hlength).2
  refine ⟨hresults, hpending, ?_⟩
  intro hk
  have hn : n = (payloads.flatMap wrap).length := by
    rw [← hcut]
    exact congrArg (·.flatten.length) (List.take_of_length_le hk)
  have hall : within payloads n = payloads := within_eq_self_iff.2 hn.ge
  refine ⟨hall, ?_⟩
  rw [hpending, unfinished, hall, hn, Nat.sub_self]
  rfl

/-- With an empty piece, an empty payload and cuts in a length and in a payload, two frames are
complete and one byte of the third is kept. -/
theorem pushAll_cut_in_third_frame :
    let payloads : List (List UInt8) := [[1, 2, 3], [], [4]]
    let pieces : List (List UInt8) :=
      [[0, 0], [0, 3, 1], [], [2, 3, 0, 0, 0, 0, 0], [0, 0, 1, 4]]
    (∀ payload ∈ payloads, payload.length ≤ maxFrameLength) ∧
      pieces.flatten = payloads.flatMap wrap ∧
      (∃ handed : List (List (List UInt8)), (fresh.pushAll (pieces.take 4)).1 = handed.map .ok ∧
        handed.flatten = [[1, 2, 3], []]) ∧
      (fresh.pushAll (pieces.take 4)).2.pending = 1 := by
  intro payloads pieces
  have hfit : ∀ payload ∈ payloads, payload.length ≤ maxFrameLength := by decide
  have hcut : pieces.flatten = payloads.flatMap wrap := by decide
  obtain ⟨hresults, hpending, -⟩ := pushAll_take_of_frames hfit hcut 4
  exact ⟨hfit, hcut, hresults, hpending⟩

/-! ### A refused length behind the frames -/

variable {length : UInt32} {more : List UInt8}

lemma readLength_of_refused (hfit : ∀ payload ∈ payloads, payload.length ≤ maxFrameLength)
    (hlong : maxFrameLength < length.toNat) :
    readLength (payloads.flatMap wrap ++ (Word.bigEndian length ++ more)) =
      { payloads := .error (.frameTooLarge length.toNat)
        reader := keeping (Word.bigEndian length ++ more) (.refused length.toNat) } := by
  induction payloads with
  | nil => rw [List.flatMap_nil, List.nil_append, readLength_bigEndian, if_pos hlong]
  | cons payload rest ih =>
    obtain ⟨hpayload, hrest⟩ := List.forall_mem_cons.1 hfit
    rw [List.flatMap_cons, List.append_assoc, readLength_wrap_append hpayload, ih hrest]
    rfl

/-- The piece that a byte of a stream is in. -/
lemma exists_piece {pieces : List (List UInt8)} {i : Nat} (h : i < pieces.flatten.length) :
    ∃ before piece later, pieces = before ++ piece :: later ∧
      before.flatten.length ≤ i ∧ i < before.flatten.length + piece.length := by
  induction pieces generalizing i with
  | nil => cases h
  | cons piece rest ih =>
    rw [List.flatten_cons, List.length_append] at h
    rcases Nat.lt_or_ge i piece.length with hi | hi
    · exact ⟨[], piece, rest, rfl, Nat.zero_le i, by simpa using hi⟩
    · obtain ⟨before, next, later, rfl, hle, hlt⟩ := ih (i := i - piece.length) (by omega)
      refine ⟨piece :: before, next, later, rfl, ?_, ?_⟩
      · rw [List.flatten_cons, List.length_append]
        omega
      · rw [List.flatten_cons, List.length_append]
        omega

/-- The piece that completes a refused length is refused with all behind it.  The payloads
handed out are those of the frames that were complete before that piece. -/
lemma pushAll_of_refused_length {before later : List (List UInt8)} {piece : List UInt8}
    (hfit : ∀ payload ∈ payloads, payload.length ≤ maxFrameLength)
    (hlong : maxFrameLength < length.toNat)
    (hcut : (before ++ piece :: later).flatten =
      payloads.flatMap wrap ++ (Word.bigEndian length ++ more))
    (hbefore : before.flatten.length < (payloads.flatMap wrap).length + 4)
    (hpiece : (payloads.flatMap wrap).length + 4 ≤ before.flatten.length + piece.length) :
    ∃ handed : List (List (List UInt8)),
      (fresh.pushAll (before ++ piece :: later)).1 = handed.map .ok ++
        List.replicate (later.length + 1) (.error (.frameTooLarge length.toNat)) ∧
      handed.length = before.length ∧ handed.flatten = within payloads before.flatten.length := by
  rw [List.flatten_append, List.flatten_cons] at hcut
  have hstart : before.flatten <+: payloads.flatMap wrap ++ (Word.bigEndian length ++ more) :=
    ⟨piece ++ later.flatten, hcut⟩
  obtain ⟨⟨handed, hresults, hhanded⟩, hreader⟩ := pushAll_of_start hfit hstart hbefore
  refine ⟨handed, ?_, ?_, hhanded⟩
  · obtain ⟨part, hpart⟩ : payloads.flatMap wrap ++ Word.bigEndian length <+:
        before.flatten ++ piece := by
      refine List.prefix_of_prefix_length_le ⟨more, List.append_assoc ..⟩
        ⟨later.flatten, (List.append_assoc ..).trans hcut⟩ ?_
      rw [List.length_append, List.length_append, Word.length_bigEndian]
      exact hpiece
    -- read at once the pieces up to this one are refused, and those before it are not
    have hboth := push_append fresh before.flatten piece
    rw [push_fresh, push_fresh, ← hpart, List.append_assoc, readLength_of_refused hfit hlong,
      ← hreader] at hboth
    have hrefused : ((fresh.pushAll before).2.push piece).payloads =
        .error (.frameTooLarge length.toNat) :=
      Outcome.append_eq_error (readLength_of_start hfit hstart hbefore).1
        (congrArg Outcome.payloads hboth).symm
    have hstage : ((fresh.pushAll before).2.push piece).reader.stage = .refused length.toNat :=
      (congrArg (·.reader.stage) hboth).symm
    rw [pushAll_append, hresults]
    simp only [pushAll, hrefused, pushAll_of_refused hstage, List.replicate_succ]
  · have hlength := congrArg List.length hresults
    rw [length_pushAll, List.length_map] at hlength
    exact hlength.symm

end Reader
end Frame
end RemoteDebugger
