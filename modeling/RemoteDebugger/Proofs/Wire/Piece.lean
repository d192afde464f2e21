/-
# Reading in pieces

Reading two pieces of a stream one after the other is reading them at once (`push_append`):
the payloads of the second are put behind those of the first, and the reader is the same.
So pieces may be cut anywhere as long as none is refused (`pushAll_eq_push`).

A refusal is where cuts can be seen.  Read at once, two pieces bring nothing if the second
is refused; read one after the other, the first has brought its payloads by then.
-/
import RemoteDebugger.Proofs.Wire.Fields
import RemoteDebugger.Wire.Frame

namespace RemoteDebugger
namespace Frame

namespace Reader

/-! ### The bytes that a reader keeps -/

lemma keep_keep (reader : Reader) (piece next : List UInt8) :
    (reader.keep piece).keep next = reader.keep (piece ++ next) := by
  simp [keep, Nat.add_assoc]

lemma keep_keeping (bytes piece : List UInt8) (stage : Stage) :
    (keeping bytes stage).keep piece = keeping (bytes ++ piece) stage := by
  simp [keep, keeping]

lemma keep_eq_keeping (reader : Reader) (piece : List UInt8) :
    reader.keep piece = keeping (reader.buffer ++ piece) reader.stage := by
  obtain ⟨received, pending, rfl, stage⟩ := reader
  simp [keep, keeping, buffer]

/-! ### One frame -/

lemma readLength_of_short {bytes : List UInt8} (h : bytes.length < 4) :
    readLength bytes = { payloads := .ok [], reader := keeping bytes .length } := by
  rw [readLength]
  rintro b₃ b₂ b₁ b₀ rest rfl
  simp only [List.length_cons] at h
  omega

lemma readLength_bigEndian (length : UInt32) (rest : List UInt8) :
    readLength (Word.bigEndian length ++ rest) =
      if maxFrameLength < length.toNat then
        { payloads := .error (.frameTooLarge length.toNat)
          reader := keeping (Word.bigEndian length ++ rest) (.refused length.toNat) }
      else readPayload length.toNat rest := by
  change readLength (Word.byteAt _ 3 :: Word.byteAt _ 2 :: Word.byteAt _ 1 :: Word.byteAt _ 0 ::
    rest) = _
  rw [readLength, Word.ofBytes_byteAt]
  rfl

/-- Bytes are too short for a length or start with one. -/
lemma exists_bigEndian {bytes : List UInt8} (h : 4 ≤ bytes.length) :
    ∃ (length : UInt32) (rest : List UInt8), bytes = Word.bigEndian length ++ rest := by
  match bytes, h with
  | b₃ :: b₂ :: b₁ :: b₀ :: rest, _ =>
    exact ⟨Word.ofBytes b₃ b₂ b₁ b₀, rest, by rw [Word.bigEndian_ofBytes]; rfl⟩

lemma readPayload_of_lt {n : Nat} {bytes : List UInt8} (h : bytes.length < n) :
    readPayload n bytes = { payloads := .ok [], reader := keeping bytes (.payload n) } := by
  have hsplit : splitFirst? n bytes = none := by
    rw [splitFirst?_eq, if_neg (by omega)]
  rw [readPayload]
  split
  · next payload rest hsome =>
    rw [hsplit] at hsome
    cases hsome
  · rfl

lemma readPayload_of_le {n : Nat} {bytes : List UInt8} (h : n ≤ bytes.length) :
    readPayload n bytes = (readLength (bytes.drop n)).cons (bytes.take n) := by
  have hsplit : splitFirst? n bytes = some (bytes.take n, bytes.drop n) := by
    rw [splitFirst?_eq, if_pos h]
  rw [readPayload]
  split
  · next payload rest hsome =>
    rw [hsplit, Option.some.injEq, Prod.mk.injEq] at hsome
    obtain ⟨rfl, rfl⟩ := hsome
    rfl
  · next hnone =>
    rw [hsplit] at hnone
    cases hnone

lemma push_of_length {reader : Reader} (h : reader.stage = .length) (piece : List UInt8) :
    reader.push piece = readLength (reader.buffer ++ piece) := by
  rw [push, h, List.reverseAux_eq, buffer]

lemma push_of_refused {reader : Reader} {n : Nat} (h : reader.stage = .refused n)
    (piece : List UInt8) :
    reader.push piece =
      { payloads := .error (.frameTooLarge n), reader := reader.keep piece } := by
  rw [push, h]

/-- Whether the bytes are counted before they are read or not, the payload is read. -/
lemma push_of_payload {reader : Reader} {n : Nat} (h : reader.stage = .payload n)
    (piece : List UInt8) :
    reader.push piece = readPayload n (reader.buffer ++ piece) := by
  have hlength : (reader.buffer ++ piece).length = reader.pending + piece.length := by
    rw [List.length_append, buffer, List.length_reverse, reader.counted]
  rw [push, h, List.reverseAux_eq]
  dsimp only
  split
  · next hshort =>
    rw [readPayload_of_lt (hlength ▸ hshort), keep_eq_keeping, h]
  · rfl

lemma push_fresh (piece : List UInt8) : fresh.push piece = readLength piece := rfl

/-! ### Two pieces -/

/-- The outcome of two pieces read at once, from that of the first and that of the second
behind it. -/
def Outcome.append (first second : Outcome) : Outcome where
  payloads := do return (← first.payloads) ++ (← second.payloads)
  reader := second.reader

/-- A first piece that brings nothing may be left out. -/
lemma Outcome.append_of_nil {first : Outcome} (h : first.payloads = .ok []) (second : Outcome) :
    first.append second = second := by
  obtain ⟨payloads, reader⟩ := second
  rw [append, h]
  cases payloads with
  | error e => rfl
  | ok payloads => rfl

lemma Outcome.cons_append (payload : List UInt8) (first second : Outcome) :
    (first.cons payload).append second = (first.append second).cons payload := by
  simp only [append, cons]
  cases first.payloads with
  | error e => rfl
  | ok payloads =>
    cases second.payloads with
    | error e => rfl
    | ok more => rfl

/-- Two pieces bring something if each of them does. -/
lemma Outcome.append_eq_ok {first second : Outcome} {payloads : List (List UInt8)}
    (h : (first.append second).payloads = .ok payloads) :
    ∃ front back, first.payloads = .ok front ∧ second.payloads = .ok back ∧
      payloads = front ++ back := by
  simp only [append] at h
  cases hfirst : first.payloads with
  | error e =>
    rw [hfirst] at h
    cases h
  | ok front =>
    cases hsecond : second.payloads with
    | error e =>
      rw [hfirst, hsecond] at h
      cases h
    | ok back =>
      rw [hfirst, hsecond] at h
      exact ⟨front, back, rfl, rfl, (Except.ok.inj h).symm⟩

lemma Outcome.append_eq_error {first second : Outcome} {payloads : List (List UInt8)}
    {e : WireError} (hfirst : first.payloads = .ok payloads)
    (h : (first.append second).payloads = .error e) : second.payloads = .error e := by
  simp only [append, hfirst] at h
  cases hsecond : second.payloads with
  | error e' =>
    rw [hsecond] at h
    exact h
  | ok back =>
    rw [hsecond] at h
    cases h

/-- Cutting the bytes behind a length; those behind the payload are left to `ih`. -/
lemma readPayload_append (n : Nat) {bytes piece : List UInt8}
    (ih : ∀ rest : List UInt8, rest.length ≤ bytes.length →
      readLength (rest ++ piece) = (readLength rest).append ((readLength rest).reader.push piece)) :
    readPayload n (bytes ++ piece) =
      (readPayload n bytes).append ((readPayload n bytes).reader.push piece) := by
  rcases Nat.lt_or_ge bytes.length n with hlength | hlength
  · rw [readPayload_of_lt hlength, Outcome.append_of_nil rfl, push_of_payload rfl, buffer_keeping]
  · -- the payload is complete without the piece, which goes to what stands behind it
    have hall : n ≤ (bytes ++ piece).length := by
      rw [List.length_append]
      omega
    have hrest : (bytes.drop n).length ≤ bytes.length := by
      rw [List.length_drop]
      omega
    rw [readPayload_of_le hlength, readPayload_of_le hall, List.drop_append_of_le_length hlength,
      List.take_append_of_le_length hlength, ih _ hrest, Outcome.cons_append]
    rfl

lemma readLength_append (bytes piece : List UInt8) :
    readLength (bytes ++ piece) =
      (readLength bytes).append ((readLength bytes).reader.push piece) := by
  -- each frame that is taken off leaves fewer bytes to read
  induction hn : bytes.length using Nat.strong_induction_on generalizing bytes with
  | h n ih =>
    rcases Nat.lt_or_ge bytes.length 4 with hshort | hlong
    · rw [readLength_of_short hshort, Outcome.append_of_nil rfl, push_of_length rfl, buffer_keeping]
    · obtain ⟨length, rest, rfl⟩ := exists_bigEndian hlong
      rw [List.length_append, Word.length_bigEndian] at hn
      rw [List.append_assoc, readLength_bigEndian, readLength_bigEndian]
      split
      · -- the piece behind a refused length is only kept
        rw [push_of_refused rfl, keep_keeping, List.append_assoc]
        rfl
      · exact readPayload_append _ fun more hmore => ih _ (by omega) more rfl

/-- Reading two pieces one after the other is reading them at once. -/
theorem push_append (reader : Reader) (piece next : List UInt8) :
    reader.push (piece ++ next) =
      (reader.push piece).append ((reader.push piece).reader.push next) := by
  cases h : reader.stage with
  | length =>
    rw [push_of_length h, push_of_length h, ← List.append_assoc, readLength_append]
  | payload n =>
    rw [push_of_payload h, push_of_payload h, ← List.append_assoc,
      readPayload_append n fun rest _ => readLength_append rest next]
  | refused n =>
    have hstage : (reader.keep piece).stage = .refused n := h
    rw [push_of_refused h, push_of_refused h, push_of_refused hstage, keep_keep]
    rfl

/-! ### All pieces -/

/-- Read pieces of a stream one after another: what each of them brings, and the reader
behind the last. -/
def pushAll (reader : Reader) :
    List (List UInt8) → List (Except WireError (List (List UInt8))) × Reader
  | [] => ([], reader)
  | piece :: rest =>
    let outcome := reader.push piece
    let (results, last) := outcome.reader.pushAll rest
    (outcome.payloads :: results, last)

@[simp] lemma length_pushAll (reader : Reader) (pieces : List (List UInt8)) :
    (reader.pushAll pieces).1.length = pieces.length := by
  induction pieces generalizing reader with
  | nil => rfl
  | cons piece rest ih => simp [pushAll, ih]

lemma pushAll_append (reader : Reader) (pieces more : List (List UInt8)) :
    reader.pushAll (pieces ++ more) =
      ((reader.pushAll pieces).1 ++ ((reader.pushAll pieces).2.pushAll more).1,
        ((reader.pushAll pieces).2.pushAll more).2) := by
  induction pieces generalizing reader with
  | nil => rfl
  | cons piece rest ih => simp [pushAll, ih]

/-- A reader that has refused a length refuses every piece. -/
lemma pushAll_of_refused {reader : Reader} {n : Nat} (h : reader.stage = .refused n)
    (pieces : List (List UInt8)) :
    (reader.pushAll pieces).1 = List.replicate pieces.length (.error (.frameTooLarge n)) := by
  induction pieces generalizing reader with
  | nil => rfl
  | cons piece rest ih =>
    have hstage : (reader.keep piece).stage = .refused n := h
    simp only [pushAll, push_of_refused h, ih hstage, List.length_cons, List.replicate_succ]

/-- A reader that has handed out all that it could. -/
def Settled (reader : Reader) : Prop :=
  reader.push [] = { payloads := .ok [], reader }

lemma settled_fresh : fresh.Settled := by
  rw [Settled, push_fresh, readLength_of_short (by decide)]
  rfl

/-- A piece that is not refused leaves nothing behind that could be handed out. -/
lemma settled_push {reader : Reader} {piece : List UInt8} {payloads : List (List UInt8)}
    (h : (reader.push piece).payloads = .ok payloads) : (reader.push piece).reader.Settled := by
  -- with an empty piece behind it the piece brings what it brings alone
  have htwice := push_append reader piece []
  rw [List.append_nil] at htwice
  have hpayloads : ((reader.push piece).append ((reader.push piece).reader.push [])).payloads =
      .ok payloads := htwice ▸ h
  obtain ⟨front, back, hfront, hback, hall⟩ := Outcome.append_eq_ok hpayloads
  obtain rfl : payloads = front := Except.ok.inj (h.symm.trans hfront)
  obtain rfl : back = [] := List.self_eq_append_right.1 hall
  have hreader : ((reader.push piece).reader.push []).reader = (reader.push piece).reader :=
    (congrArg Outcome.reader htwice).symm
  rw [Settled]
  cases hempty : (reader.push piece).reader.push [] with
  | mk nothing same =>
    rw [hempty] at hback hreader
    rw [← hreader, ← hback]

/-- As long as no length is refused it does not matter where a stream is cut. -/
lemma pushAll_eq_push {reader : Reader} (hsettled : reader.Settled) {pieces : List (List UInt8)}
    {payloads : List (List UInt8)} (h : (reader.push pieces.flatten).payloads = .ok payloads) :
    (∃ handed : List (List (List UInt8)), (reader.pushAll pieces).1 = handed.map .ok ∧
      handed.flatten = payloads) ∧
      (reader.pushAll pieces).2 = (reader.push pieces.flatten).reader := by
  induction pieces generalizing reader payloads with
  | nil =>
    rw [List.flatten_nil, hsettled] at h ⊢
    exact ⟨⟨[], rfl, Except.ok.inj h⟩, rfl⟩
  | cons piece rest ih =>
    rw [List.flatten_cons, push_append] at h ⊢
    obtain ⟨front, back, hfront, hback, rfl⟩ := Outcome.append_eq_ok h
    -- the first piece is not refused, so the reader behind it is settled again
    obtain ⟨⟨handed, hresults, rfl⟩, hreader⟩ := ih (settled_push hfront) hback
    refine ⟨⟨front :: handed, ?_, List.flatten_cons⟩, hreader⟩
    simp only [pushAll, hfront, hresults, List.map_cons]

end Reader
end Frame
end RemoteDebugger
