/-
# Numerals

A numeral is an optional plus sign and at least one digit of the radix, most significant
first; leading zeros are allowed, and both cases of the letters count as digits.  Its
value must stay below a limit.  Digits are read from left to right and the first problem
ends the reading; where one and the same character is no digit and the value has grown
too large already, the character is blamed.
-/
import RemoteDebugger.Text.Utf8

namespace RemoteDebugger

/-- Why a text is no numeral. -/
inductive NumeralError where
  /-- There is nothing to read. -/
  | empty
  /-- A character is not a digit, or there is only a sign. -/
  | badDigit
  /-- The value reaches the limit. -/
  | tooLarge
deriving DecidableEq, Repr

/-- The wording of a problem with a numeral. -/
def NumeralError.message : NumeralError → String
  | .empty => "cannot parse integer from empty string"
  | .badDigit => "invalid digit found in string"
  | .tooLarge => "number too large to fit in target type"

namespace Numeral

/-- The value of an ASCII digit or letter, whatever the radix. -/
def digitValue? (code : UInt8) : Option Nat :=
  if 48 ≤ code && code ≤ 57 then some (code.toNat - 48)
  else if 97 ≤ code && code ≤ 122 then some (code.toNat - 87)
  else if 65 ≤ code && code ≤ 90 then some (code.toNat - 55)
  else none

/-- The value of a digit of the radix. -/
def digit? (radix : Nat) (code : UInt8) : Option Nat :=
  (digitValue? code).filter (· < radix)

/-- Read digits behind those that make up `value`. -/
def readDigits (radix limit : Nat) (value : Nat) : List UInt8 → Except NumeralError Nat
  | [] => .ok value
  | code :: rest =>
    match digit? radix code with
    | none => .error .badDigit
    | some d =>
      if value * radix + d < limit then readDigits radix limit (value * radix + d) rest
      else .error .tooLarge

/-- The number below `limit` that a text spells in a radix. -/
def read (radix limit : Nat) : List UInt8 → Except NumeralError Nat
  | [] => .error .empty
  | [43] => .error .badDigit
  | 43 :: digits => readDigits radix limit 0 digits
  | digits => readDigits radix limit 0 digits

/-- The word that a text spells in a radix. -/
def readWord (radix : Nat) (codes : List UInt8) : Except NumeralError UInt32 :=
  (read radix 0x100000000 codes).map UInt32.ofNat

/-- The word that a hexadecimal numeral without any sign of its radix stands for. -/
def hexWord? (codes : List UInt8) : Option UInt32 :=
  (readWord 16 codes).toOption

end Numeral
end RemoteDebugger
