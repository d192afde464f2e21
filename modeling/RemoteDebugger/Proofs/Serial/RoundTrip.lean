/-
# Packets come back out of a stream

GDB sends packets, acknowledgements and, between packets, requests to stop.  In a stream made
of such items a scanner finds the packets and the requests in their order and nothing else,
whatever bytes the payloads hold, and each packet gives its payload back.

Two facts carry this: an escaped payload holds no byte that ends it, and the sum that is sent
is that of the escaped bytes.
-/
import Mathlib.Tactic.Common
import RemoteDebugger.Proofs.Serial.Scanner

namespace RemoteDebugger
namespace Packet

/-- What GDB sends. -/
inductive Item where
  /-- A payload, as a packet. -/
  | payload (data : List UInt8)
  /-- An acknowledgement, with a plus sign or a minus sign. -/
  | ack (positive : Bool)
  /-- A request to stop. -/
  | interrupt
deriving DecidableEq, Repr

namespace Item

/-- The bytes that an item is sent as. -/
def bytes : Item → List UInt8
  | .payload data => encode data
  | .ack true => [0x2b]
  | .ack false => [0x2d]
  | .interrupt => [interruptByte]

/-- The event that an item should lead to: a packet is found as it was escaped, and nothing is
found of an acknowledgement. -/
def event? : Item → Option Event
  | .payload data => some (.packet (escape data))
  | .ack _ => none
  | .interrupt => some .interrupt

/-- The payload of an item that is a packet. -/
def payload? : Item → Option (List UInt8)
  | .payload data => some data
  | .ack _ | .interrupt => none

end Item

/-- The payload of an event that is a packet, still escaped. -/
def Event.payload? : Event → Option (List UInt8)
  | .packet payload => some payload
  | .mismatch .. | .interrupt => none

namespace Scanner

/-- A packet that is sent is taken off the front as it is. -/
lemma takeEvent_encode_append (data rest : List UInt8) :
    takeEvent (encode data ++ rest) = (some (.packet (escape data)), rest) := by
  have hbytes : encode data ++ rest =
      opening :: (escape data ++ closing :: (Hex.byteDigits (checksum (escape data)) ++ rest)) := by
    simp [encode]
  rw [hbytes, takeEvent_opening, takePacket_closed (closing_not_mem_escape data),
    ← Event.ofPacket_checksum (escape data)]
  rfl

/-- What the bytes of an item add to the events of those behind it. -/
lemma drain_item_append (item : Item) (rest : List UInt8) :
    ({ buffer := item.bytes ++ rest } : Scanner).drain =
      after item.event?.toList ({ buffer := rest } : Scanner).drain := by
  cases item with
  | payload data => exact drain_of_some (takeEvent_encode_append data rest)
  | ack positive =>
    cases positive with
    | true => exact drain_congr (takeEvent_outside (by decide) (by decide) rest)
    | false => exact drain_congr (takeEvent_outside (by decide) (by decide) rest)
  | interrupt => exact drain_of_some (takeEvent_interrupt rest)

lemma drain_items (items : List Item) :
    (({} : Scanner).push (items.flatMap Item.bytes)).drain = (items.filterMap Item.event?, {}) := by
  change ({ buffer := items.flatMap Item.bytes } : Scanner).drain = _
  induction items with
  | nil => exact drain_of_none rfl
  | cons item rest ih =>
    rw [List.flatMap_cons, drain_item_append, ih]
    cases item with
    | payload data => rfl
    | ack positive => rfl
    | interrupt => rfl

end Scanner

lemma payload?_event? (item : Item) :
    item.event?.bind Event.payload? = item.payload?.map escape := by
  cases item with
  | payload data => rfl
  | ack positive => rfl
  | interrupt => rfl

/-- Of a stream of packets, acknowledgements and requests to stop a scanner finds exactly the
packets and the requests, in order and none of them with a wrong sum; nothing of the stream is
left; and what is found in the packets are the payloads that were sent. -/
theorem drain_stream_of_items (items : List Item) :
    let (events, scanner) := (({} : Scanner).push (items.flatMap Item.bytes)).drain
    events = items.filterMap Item.event? ∧
      (∀ expected actual, Event.mismatch expected actual ∉ events) ∧
      scanner.buffer = [] ∧
      (events.filterMap Event.payload?).map unescape = (items.filterMap Item.payload?).map .ok := by
  rw [Scanner.drain_items]
  refine ⟨rfl, fun expected actual hmem => ?_, rfl, ?_⟩
  · obtain ⟨item, -, hitem⟩ := List.mem_filterMap.1 hmem
    cases item with
    | payload data => cases hitem
    | ack positive => cases hitem
    | interrupt => cases hitem
  · rw [List.filterMap_filterMap]
    simp only [payload?_event?, List.map_filterMap, Option.map_map, Function.comp_def,
      unescape_escape]

/-- Payloads of reserved bytes, of bytes that mean something outside of packets, and of none. -/
example : (({} : Scanner).push
      ([.ack true, .payload [0x23, 0x24, 0x7d], .interrupt, .payload [0x03, 0x2b, 0x2d], .ack false,
        .payload []].flatMap Item.bytes)).drain =
    ([.packet [0x7d, 0x03, 0x7d, 0x04, 0x7d, 0x5d], .interrupt, .packet [0x03, 0x2b, 0x2d],
      .packet []], {}) := by
  decide +kernel

end Packet
end RemoteDebugger
