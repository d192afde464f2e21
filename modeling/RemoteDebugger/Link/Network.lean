/-
# The network

All that the rules of the connections need to know of the network is whether one end can
reach another.
-/

namespace RemoteDebugger

/-- Whether connections can be made. -/
inductive Network where
  /-- Every listener can be reached. -/
  | reachable
  /-- No way leads to any listener. -/
  | unreachable
deriving DecidableEq, Repr

/-- Why a connection is not made. -/
inductive ConnectError where
  /-- There is no way to the other end. -/
  | networkUnreachable
deriving DecidableEq, Repr

/-- The wording of a connection that is not made. -/
def ConnectError.message : ConnectError → String
  | .networkUnreachable => "Network is unreachable (os error 101)"

/-- Make a connection. -/
def Network.connect : Network → Except ConnectError Unit
  | .reachable => .ok ()
  | .unreachable => .error .networkUnreachable

end RemoteDebugger
