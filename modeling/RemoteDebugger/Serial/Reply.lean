/-
# Replies of the serial protocol

The target answers a command with a short text: an acknowledgement, an error number, bytes
as hexadecimal digits, or why it has stopped.  An empty reply says that the command is not
supported.
-/
import RemoteDebugger.Serial.Command

namespace RemoteDebugger

/-- Why the target has stopped, as GDB is told. -/
inductive StopReason where
  /-- A signal. -/
  | signal (number : UInt8)
  /-- A breakpoint. -/
  | softwareBreak
  /-- A change of watched memory. -/
  | watch (kind : PointKind) (address : UInt32)
  /-- The end of a single step. -/
  | trap
  /-- A request to stop. -/
  | interrupted
deriving DecidableEq, Repr

/-- A reply of the target. -/
inductive Reply where
  /-- The command was carried out. -/
  | ok
  /-- The command is not supported. -/
  | empty
  /-- The command failed. -/
  | error (code : UInt8)
  /-- Bytes. -/
  | hex (data : List UInt8)
  /-- The target has stopped. -/
  | stop (reason : StopReason)
  /-- A text. -/
  | text (content : String)
deriving DecidableEq, Repr

/-- What a watched point is called in the report of its change. -/
def PointKind.watchName : PointKind → String
  | .read => "rwatch"
  | .access => "awatch"
  | .write | .software | .hardware => "watch"

/-- The text of a stop. -/
def StopReason.text : StopReason → String
  | .signal number => "S" ++ Hex.byte2 number
  | .softwareBreak => "T05swbreak:;"
  | .watch kind address => "T05" ++ kind.watchName ++ ":" ++ Hex.word8 address ++ ";"
  | .trap => "T05"
  | .interrupted => "T02"

namespace Reply

/-- The payload of a reply. -/
def payload : Reply → List UInt8
  | .ok => Text.utf8 "OK"
  | .empty => []
  | .error code => Text.utf8 ("E" ++ Hex.byte2 code)
  | .hex data => Hex.encode data
  | .stop reason => Text.utf8 reason.text
  | .text content => Text.utf8 content

/-- A reply as a packet. -/
def packet (reply : Reply) : List UInt8 := Packet.encode reply.payload

end Reply
end RemoteDebugger
