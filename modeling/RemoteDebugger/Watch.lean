/-
# Watches

A client may have ranges of memory reported to it whenever the machine stops.  Each has a
number that the client chose; a new view under an old number takes the place of the old.
-/
import RemoteDebugger.Directory
import RemoteDebugger.Fault
import RemoteDebugger.Wire.Message

namespace RemoteDebugger

/-- The watched views, by number. -/
abbrev Watches : Type := Directory MemoryView

namespace Watches

/-- Watch a view. -/
def register (watches : Watches) (view : MemoryView) : Watches := watches.insert view.id view

/-- Watch a view no longer, and tell which it was. -/
def remove (watches : Watches) (id : UInt32) : Except Fault (MemoryView × Watches) :=
  match watches.get? id with
  | some view => .ok (view, watches.erase id)
  | none => .error (.noWatch id)

end Watches
end RemoteDebugger
