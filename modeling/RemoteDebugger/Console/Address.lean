/-
# Addresses as users write them

An address is written in decimal, or in hexadecimal behind `0x`.  Digits that are no
decimal number are tried as hexadecimal without a mark; what is said of a text that is
neither is what is wrong with it as hexadecimal.
-/
import RemoteDebugger.Text.Blank
import RemoteDebugger.Text.Numeral

namespace RemoteDebugger

/-- Why a text is no address: the text without blanks around it, whether it is marked as
hexadecimal, and what is wrong with its digits. -/
structure AddressError where
  /-- The text. -/
  text : String
  /-- Whether it is marked as hexadecimal. -/
  marked : Bool
  /-- What is wrong. -/
  cause : NumeralError
deriving DecidableEq, Repr

/-- The wording of a refusal. -/
def AddressError.message (e : AddressError) : String :=
  (if e.marked then "Invalid hexadecimal address '" else "Invalid address '") ++ e.text ++ "': "
    ++ e.cause.message

namespace Console

/-- The digits behind a mark of hexadecimal, if there is one. -/
def unmarked? : List UInt8 → Option (List UInt8)
  | 0x30 :: 0x78 :: digits => some digits
  | 0x30 :: 0x58 :: digits => some digits
  | _ => none

/-- Read an address. -/
def parseAddress (text : String) : Except AddressError UInt32 :=
  let text := Text.trim text
  match unmarked? (Text.utf8 text) with
  | some digits =>
    match Numeral.readWord 16 digits with
    | .ok address => .ok address
    | .error cause => .error { text, marked := true, cause }
  | none =>
    match Numeral.readWord 10 (Text.utf8 text) with
    | .ok address => .ok address
    | .error _ =>
      match Numeral.readWord 16 (Text.utf8 text) with
      | .ok address => .ok address
      | .error cause => .error { text, marked := false, cause }

end Console
end RemoteDebugger
