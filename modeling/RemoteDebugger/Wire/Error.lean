/-
# What can be wrong with received bytes
-/

namespace RemoteDebugger

/-- The longest payload that a frame may carry. -/
def maxFrameLength : Nat := 16 * 1024 * 1024

/-- Why received bytes are refused. -/
inductive WireError where
  /-- No kind of message has this tag. -/
  | unknownTag (tag : UInt32)
  /-- A field needs more bytes than are left. -/
  | truncated (field : String) (needed available : Nat)
  /-- A count does not agree with what is there. -/
  | lengthMismatch (field : String) (declared actual : Nat)
  /-- A frame announces a payload that is too long. -/
  | frameTooLarge (length : Nat)
  /-- A text is not ASCII. -/
  | invalidText (field : String)
  /-- The data ends within an escape sequence. -/
  | danglingEscape
deriving DecidableEq, Repr

namespace WireError

/-- The wording of a refusal. -/
def message : WireError → String
  | .unknownTag tag => s!"unknown message type {tag}"
  | .truncated field needed available => s!"{field}: need {needed} bytes, have {available}"
  | .lengthMismatch field declared actual => s!"{field}: declared {declared}, got {actual}"
  | .frameTooLarge length => s!"frame too large: {length} > {maxFrameLength}"
  | .invalidText field => s!"invalid text in {field}"
  | .danglingEscape => "dangling escape byte at end of data"

end WireError
end RemoteDebugger
