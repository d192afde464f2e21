/-
# How messages are read

Reading takes the fields of a message one after another from the front of the bytes.  The
first field that is not as it should be decides the error; of a field that is too short
the error says how many bytes it needs.  Kinds whose fields have a fixed length ignore
what follows them; all other kinds take every byte of the message.
-/
import RemoteDebugger.Word
import RemoteDebugger.Text.Utf8
import RemoteDebugger.Wire.Error
import RemoteDebugger.Wire.Message

namespace RemoteDebugger
namespace Message

/-- Take a byte. -/
def takeByte (field : String) : List UInt8 → Except WireError (UInt8 × List UInt8)
  | b :: rest => .ok (b, rest)
  | [] => .error (.truncated field 1 0)

/-- Take a half word. -/
def takeHalf (field : String) : List UInt8 → Except WireError (UInt16 × List UInt8)
  | b₁ :: b₀ :: rest => .ok (UInt16.ofNat (b₁.toNat * 256 + b₀.toNat), rest)
  | short => .error (.truncated field 2 short.length)

/-- Take a word. -/
def takeWord (field : String) : List UInt8 → Except WireError (UInt32 × List UInt8)
  | b₃ :: b₂ :: b₁ :: b₀ :: rest => .ok (Word.ofBytes b₃ b₂ b₁ b₀, rest)
  | short => .error (.truncated field 4 short.length)

/-- Take so many bytes. -/
def takeBytes (field : String) (n : Nat) (bytes : List UInt8) : Except WireError (List UInt8 × List UInt8) :=
  if bytes.length < n then .error (.truncated field n bytes.length)
  else .ok (bytes.take n, bytes.drop n)

/-- Take so many words. -/
def takeWords (field : String) : (n : Nat) → List UInt8 → Except WireError (Vector UInt32 n × List UInt8)
  | 0, bytes => .ok (#v[], bytes)
  | n + 1, bytes => do
    let (values, rest) ← takeWords field n bytes
    let (value, rest) ← takeWord field rest
    return (values.push value, rest)

/-- Take the fields of a view. -/
def takeView (bytes : List UInt8) : Except WireError (MemoryView × List UInt8) := do
  let (id, rest) ← takeWord "memview id" bytes
  let (start, rest) ← takeWord "memview start" rest
  let (size, rest) ← takeWord "memview size" rest
  let (watchStart, rest) ← takeWord "memview watch_start" rest
  let (watchSize, rest) ← takeWord "memview watch_size" rest
  return ({ id, start, size, watchStart, watchSize }, rest)

/-- Take a text that a NUL ends. -/
def takeName (field : String) (bytes : List UInt8) : Except WireError (String × List UInt8) :=
  match bytes.dropWhile (· != 0) with
  | [] => .error (.truncated field (bytes.length + 1) bytes.length)
  | _ :: rest =>
    match Text.ofAscii? (bytes.takeWhile (· != 0)) with
    | some name => .ok (name, rest)
    | none => .error (.invalidText field)

/-- Read bytes as ASCII text. -/
def asText (field : String) (bytes : List UInt8) : Except WireError String :=
  match Text.ofAscii? bytes with
  | some text => .ok text
  | none => .error (.invalidText field)

/-- Read bytes as ASCII texts with a byte between each two of them. -/
def asTexts (field : String) (separator : UInt8) (bytes : List UInt8) :
    Except WireError (List String) :=
  if Text.isAscii bytes then .ok ((bytes.splitOn separator).map Text.ofCodes)
  else .error (.invalidText field)

/-- Check a count against what is there. -/
def checkCount (field : String) (declared actual : Nat) : Except WireError Unit :=
  if actual = declared then .ok () else .error (.lengthMismatch field declared actual)

theorem length_of_takeWord {field : String} {bytes rest : List UInt8} {value : UInt32}
    (h : takeWord field bytes = .ok (value, rest)) : bytes.length = rest.length + 4 := by
  match bytes, h with
  | b₃ :: b₂ :: b₁ :: b₀ :: tail, h =>
    simp only [takeWord, Except.ok.injEq, Prod.mk.injEq] at h
    simp [h.2]

theorem length_of_takeName {field : String} {bytes rest : List UInt8} {name : String}
    (h : takeName field bytes = .ok (name, rest)) : rest.length < bytes.length := by
  unfold takeName at h
  have hlen := (List.dropWhile_suffix (p := (· != (0 : UInt8))) (l := bytes)).length_le
  split at h
  · cases h
  · next heq =>
    rw [heq, List.length_cons] at hlen
    split at h
    · cases h; omega
    · cases h

/-- Read symbols to the end of the bytes. -/
def asSymbols (bytes : List UInt8) : Except WireError (List (UInt32 × String)) :=
  if bytes.isEmpty then .ok []
  else
    match _hword : takeWord "symbol address" bytes with
    | .error e => .error e
    | .ok (address, rest) =>
      match _hname : takeName "symbol name" rest with
      | .error e => .error e
      | .ok (name, rest') =>
        match asSymbols rest' with
        | .error e => .error e
        | .ok symbols => .ok ((address, name) :: symbols)
termination_by bytes.length
decreasing_by
  have h₁ := length_of_takeWord _hword
  have h₂ := length_of_takeName _hname
  omega

/-- Read the fields of a kind. -/
def ofBody (kind : Kind) (bytes : List UInt8) : Except WireError Message :=
  match kind with
  | .connect => do
    let (port, rest) ← takeHalf "handshake port" bytes
    let host ← asText "handshake host" rest
    return .connect { host, port }
  | .disconnect => return .disconnect
  | .stop => return .stop
  | .resume => return .resume
  | .step => return .step
  | .restart => return .restart
  | .next => return .next
  | .tapeUnload => return .tapeUnload
  | .setBreakpoint => do
    let (address, _) ← takeWord "breakpoint address" bytes
    return .setBreakpoint address
  | .unsetBreakpoint => do
    let (address, _) ← takeWord "breakpoint address" bytes
    return .unsetBreakpoint address
  | .unwatch => do
    let (id, _) ← takeWord "watch id" bytes
    return .unwatch id
  | .tapeLoad => do
    let (index, _) ← takeWord "tape index" bytes
    return .tapeLoad index
  | .memoryData => do
    let (id, rest) ← takeWord "memdata id" bytes
    let (start, rest) ← takeWord "memdata start" rest
    let (size, data) ← takeWord "memdata size" rest
    checkCount "memdata" size.toNat data.length
    return .memoryData { id, start, data }
  | .memoryWatch => do
    let (view, _) ← takeView bytes
    return .memoryWatch view
  | .disassembly => do
    let (view, _) ← takeView bytes
    return .disassembly view
  | .state => do
    let (registers, rest) ← takeWords "state registers" registerCount bytes
    let (mode, rest) ← takeWord "state mode" rest
    let (pc, rest) ← takeWord "state pc" rest
    let (flag, _) ← takeByte "state waiting flag" rest
    return .state { registers, mode, pc, waiting := flag != 0 }
  | .disassemblyData => do
    let (start, rest) ← takeWord "disassembly start" bytes
    let (size, rest) ← takeWord "disassembly length" rest
    let (memory, text) ← takeBytes "disassembly memory" size.toNat rest
    let lines ←
      if text.isEmpty && size.toNat < 4 then pure [] else asTexts "disassembly lines" 0x0a text
    checkCount "disassembly lines" (size.toNat / 4) lines.length
    return .disassemblyData { start, memory, lines }
  | .tapeRequest => do
    let (id, rest) ← takeWord "tape request id" bytes
    let (start, rest) ← takeWord "tape request start" rest
    let (size, _) ← takeWord "tape request size" rest
    return .tapeRequest { id, start, size }
  | .tapeList => do
    let (id, rest) ← takeWord "tape list id" bytes
    let (start, rest) ← takeWord "tape list start" rest
    let (size, rest) ← takeWord "tape list size" rest
    let (total, text) ← takeWord "tape list total" rest
    let names ← if size = 0 && text.isEmpty then pure [] else asTexts "tape names" 0 text
    checkCount "tape list" size.toNat names.length
    return .tapeList { id, start, total, names }
  | .symbolData => do
    let symbols ← asSymbols bytes
    return .symbolData symbols

/-- Read a message. -/
def decode (bytes : List UInt8) : Except WireError Message := do
  let (tag, rest) ← takeWord "message type" bytes
  match Kind.ofTag? tag with
  | some kind => ofBody kind rest
  | none => throw (.unknownTag tag)

end Message
end RemoteDebugger
