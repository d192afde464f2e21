/-
# Tapes

The machine has one tape drive and a catalogue of tapes that fit it, known to a client by
their positions in the catalogue.  What a tape holds is not the debugger's business.
-/
import RemoteDebugger.Fault

namespace RemoteDebugger

/-- The catalogue and what is in the drive. -/
structure Tapes where
  /-- The names of the tapes, in the order of the catalogue. -/
  names : List String := []
  /-- The position of the tape in the drive. -/
  loaded : Option Nat := none
deriving DecidableEq, Repr, Inhabited

namespace Tapes

/-- How many tapes there are. -/
def size (tapes : Tapes) : Nat := tapes.names.length

/-- Put a tape into the drive, in place of the one in it, and tell its name. -/
def load (tapes : Tapes) (index : UInt32) : Except Fault (String × Tapes) :=
  match tapes.names[index.toNat]? with
  | some name => .ok (name, { tapes with loaded := some index.toNat })
  | none => .error (.noTape index tapes.size)

/-- Take the tape out of the drive. -/
def unload (tapes : Tapes) : Tapes := { tapes with loaded := none }

/-- The names from a position on, but no more than `size`. -/
def window (tapes : Tapes) (start size : UInt32) : List String :=
  (tapes.names.drop start.toNat).take size.toNat

end Tapes
end RemoteDebugger
