/-
# How messages are written

A message is its tag, a word, and then the fields of its kind.  Numbers are written most
significant byte first.  Text is written as its UTF-8 bytes: a host and the lines of a
listing extend to the end of the message, the lines parted by line feeds; tape names are
parted by NUL bytes; a symbol's name is ended by one.  Counts are words, so a count of
`2 ^ 32` or more loses its upper part; `Message.WellFormed` says which messages have a
written form that stands for them and nothing else.
-/
import RemoteDebugger.Word
import RemoteDebugger.Text.Utf8
import RemoteDebugger.Wire.Message

namespace RemoteDebugger
namespace Message

/-- Words, one after another. -/
def words (values : List UInt32) : List UInt8 :=
  values.flatMap Word.bigEndian

/-- The word that counts something. -/
def count (n : Nat) : List UInt8 :=
  Word.bigEndian (UInt32.ofNat n)

/-- Texts with a byte between each two of them. -/
def joined (separator : UInt8) (texts : List String) : List UInt8 :=
  [separator].intercalate (texts.map Text.utf8)

/-- The fields of a view. -/
def viewFields (view : MemoryView) : List UInt32 :=
  [view.id, view.start, view.size, view.watchStart, view.watchSize]

/-- A symbol: its address, its name and a NUL. -/
def symbolEntry (symbol : UInt32 × String) : List UInt8 :=
  Word.bigEndian symbol.1 ++ Text.utf8 symbol.2 ++ [0]

/-- The fields of a message, behind its tag. -/
def body : Message → List UInt8
  | .connect handshake =>
    [UInt8.ofNat (handshake.port.toNat / 256), UInt8.ofNat handshake.port.toNat]
      ++ Text.utf8 handshake.host
  | .disconnect | .stop | .resume | .step | .restart | .tapeUnload | .next => []
  | .setBreakpoint value | .unsetBreakpoint value | .unwatch value | .tapeLoad value =>
    Word.bigEndian value
  | .memoryData contents =>
    words [contents.id, contents.start] ++ count contents.data.length ++ contents.data
  | .memoryWatch view | .disassembly view => words (viewFields view)
  | .state snapshot =>
    words snapshot.registers.toList ++ words [snapshot.mode, snapshot.pc]
      ++ [if snapshot.waiting then 0x31 else 0]
  | .disassemblyData listing =>
    Word.bigEndian listing.start ++ count listing.memory.length ++ listing.memory
      ++ joined 0x0a listing.lines
  | .tapeRequest request => words [request.id, request.start, request.size]
  | .tapeList window =>
    words [window.id, window.start] ++ count window.names.length
      ++ Word.bigEndian window.total ++ joined 0 window.names
  | .symbolData symbols => symbols.flatMap symbolEntry

/-- A message as bytes. -/
def encode (message : Message) : List UInt8 :=
  Word.bigEndian message.kind.tag ++ message.body

/-- Text of ASCII characters only, none of which is the given one. -/
def PlainText (excluded : Option Char) (text : String) : Prop :=
  ∀ c ∈ text.toList, c.val < 0x80 ∧ some c ≠ excluded

instance (excluded : Option Char) (text : String) : Decidable (PlainText excluded text) :=
  List.decidableBAll (fun c : Char => c.val < 0x80 ∧ some c ≠ excluded) text.toList

/-- Messages whose written form stands for them: text is ASCII and free of the byte that
ends it, counts fit a word, and a listing has a line for every whole word. -/
def WellFormed : Message → Prop
  | .connect handshake => PlainText none handshake.host
  | .memoryData contents => contents.data.length < 0x100000000
  | .disassemblyData listing =>
    listing.memory.length < 0x100000000 ∧ listing.lines.length = listing.memory.length / 4 ∧
      ∀ line ∈ listing.lines, PlainText (some '\n') line
  | .tapeList window =>
    window.names.length < 0x100000000 ∧ ∀ name ∈ window.names, PlainText (some '\x00') name
  | .symbolData symbols => ∀ symbol ∈ symbols, PlainText (some '\x00') symbol.2
  | _ => True

end Message
end RemoteDebugger
