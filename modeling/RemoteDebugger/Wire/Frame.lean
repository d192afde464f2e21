/-
# Frames

On the stream between debugger and client every message travels as a frame: the length
of the message as a word, most significant byte first, and then the message, the frame's
*payload*.  A frame reader takes the stream in pieces that may be cut anywhere.  It keeps
the bytes of the frame that is not complete yet and, once it has read the length of that
frame, the length in place of its four bytes.

A length beyond `maxFrameLength` cannot be skipped: the reader gives the payloads of its
piece up for the error, keeps the bytes from that length on, and refuses every later piece.
-/
import RemoteDebugger.Wire.Encoding
import RemoteDebugger.Wire.Error

namespace RemoteDebugger
namespace Frame

/-- A payload as a frame. -/
def wrap (payload : List UInt8) : List UInt8 :=
  Message.count payload.length ++ payload

/-- A message as a frame. -/
def encode (message : Message) : List UInt8 :=
  wrap message.encode

/-- What the bytes that belong to no complete frame yet start with. -/
inductive Stage where
  /-- A length, or a part of one. -/
  | length
  /-- A payload of a known length. -/
  | payload (length : Nat)
  /-- A length that is refused. -/
  | refused (length : Nat)
deriving DecidableEq, Repr

/-- A frame reader between two pieces of the stream.  The bytes that belong to no complete
frame yet are kept with the last one first, so that those of the next piece are soon put to
them. -/
structure Reader where
  /-- The bytes that belong to no complete frame yet, the last one first. -/
  received : List UInt8 := []
  /-- How many bytes belong to no complete frame yet. -/
  pending : Nat := received.length
  /-- They are counted. -/
  counted : pending = received.length := by rfl
  /-- What they start with. -/
  stage : Stage := .length
deriving DecidableEq, Repr

namespace Reader

/-- The reader at the start of a stream. -/
def fresh : Reader := {}

/-- The bytes that belong to no complete frame yet, in order. -/
def buffer (reader : Reader) : List UInt8 := reader.received.reverse

/-- A reader that keeps bytes. -/
def keeping (bytes : List UInt8) (stage : Stage) : Reader :=
  { received := bytes.reverse, pending := bytes.length, counted := by simp, stage }

/-- A reader that keeps a piece as well. -/
def keep (reader : Reader) (piece : List UInt8) : Reader :=
  { reader with
    received := piece.reverseAux reader.received
    pending := reader.pending + piece.length
    counted := by simp [reader.counted, Nat.add_comm] }

@[simp] theorem buffer_keeping (bytes : List UInt8) (stage : Stage) :
    (keeping bytes stage).buffer = bytes := List.reverse_reverse bytes

/-- Whether there are so many bytes.  No more of them are looked at. -/
def hasFirst : Nat → List UInt8 → Bool
  | 0, _ => true
  | _ + 1, [] => false
  | n + 1, _ :: rest => hasFirst n rest

/-- Split off the first bytes if there are so many. -/
def splitFirst? (n : Nat) (bytes : List UInt8) : Option (List UInt8 × List UInt8) :=
  if hasFirst n bytes then some (bytes.splitAt n) else none

theorem hasFirst_eq (n : Nat) (bytes : List UInt8) :
    hasFirst n bytes = decide (n ≤ bytes.length) := by
  induction n generalizing bytes with
  | zero => simp [hasFirst]
  | succ n ih => cases bytes <;> simp [hasFirst, ih]

theorem splitFirst?_eq (n : Nat) (bytes : List UInt8) :
    splitFirst? n bytes =
      if n ≤ bytes.length then some (bytes.take n, bytes.drop n) else none := by
  simp [splitFirst?, hasFirst_eq]

theorem length_of_splitFirst? {n : Nat} {bytes first after : List UInt8}
    (h : splitFirst? n bytes = some (first, after)) : bytes.length = n + after.length := by
  rw [splitFirst?_eq] at h
  split at h
  · cases h; simp; omega
  · cases h

/-- What a piece of the stream brings: the payloads it completes, or the refusal of a
length; and the reader afterwards. -/
structure Outcome where
  /-- The completed payloads. -/
  payloads : Except WireError (List (List UInt8))
  /-- The reader afterwards. -/
  reader : Reader

/-- An outcome with one more payload in front. -/
def Outcome.cons (payload : List UInt8) (outcome : Outcome) : Outcome :=
  { outcome with payloads := outcome.payloads.map (payload :: ·) }

mutual

/-- Read frames from bytes that start with a length. -/
def readLength (bytes : List UInt8) : Outcome :=
  match bytes with
  | b₃ :: b₂ :: b₁ :: b₀ :: rest =>
    let length := (Word.ofBytes b₃ b₂ b₁ b₀).toNat
    if maxFrameLength < length then
      { payloads := .error (.frameTooLarge length), reader := keeping bytes (.refused length) }
    else readPayload length rest
  | _ => { payloads := .ok [], reader := keeping bytes .length }
termination_by (bytes.length, 0)

/-- Read frames from bytes that start with a payload of a known length. -/
def readPayload (length : Nat) (bytes : List UInt8) : Outcome :=
  match _h : splitFirst? length bytes with
  | some (payload, rest) => (readLength rest).cons payload
  | none => { payloads := .ok [], reader := keeping bytes (.payload length) }
termination_by (bytes.length, 1)
decreasing_by
  have := length_of_splitFirst? _h
  simp only [Prod.lex_def]
  omega

end

/-- Read the next piece of the stream.  A piece behind a refused length, or one that does not
complete a payload, is only kept. -/
def push (reader : Reader) (piece : List UInt8) : Outcome :=
  match reader.stage with
  | .length => readLength (reader.received.reverseAux piece)
  | .refused length =>
    { payloads := .error (.frameTooLarge length), reader := reader.keep piece }
  | .payload length =>
    if reader.pending + piece.length < length then
      { payloads := .ok [], reader := reader.keep piece }
    else readPayload length (reader.received.reverseAux piece)

end Reader
end Frame
end RemoteDebugger
