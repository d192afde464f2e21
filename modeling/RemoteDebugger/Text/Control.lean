/-
# Control sequences

Text for a terminal may hold control sequences, which a terminal obeys and does not show.
They are how parts of a text are marked; where nothing obeys them they have to be taken out
again, and with them all others that the text holds, and control characters that are no
white space.

A sequence begins with an escape character.  What follows it says of which kind the
sequence is and so how it ends: at a final character, or, if it carries a text of its own,
at a terminator.  A device control has parameters and intermediate characters, in this
order, before its text.  A new escape character ends any sequence.  White space inside of a
sequence that carries no text is shown at its place, and so is what stands between it and
the next control character.
-/

namespace RemoteDebugger
namespace Control

/-- What a part of a text is marked as. -/
inductive Mark where
  /-- It says that something is wrong. -/
  | alarm
  /-- It is what is wrong. -/
  | culprit
  /-- It is to be typed as it stands. -/
  | literal
deriving DecidableEq, Repr

/-- The control sequence with which a mark begins. -/
def Mark.start : Mark → String
  | .alarm => "\x1b[1m\x1b[31m"
  | .culprit => "\x1b[33m"
  | .literal => "\x1b[1m"

/-- The control sequence with which every mark ends. -/
def Mark.finish : String := "\x1b[0m"

/-- A marked text. -/
def Mark.around (mark : Mark) (text : String) : String := mark.start ++ text ++ finish

/-- Where in a control sequence a character stands. -/
inductive Place where
  /-- Outside of any. -/
  | outside
  /-- Behind the escape character. -/
  | escape
  /-- Behind an escape character and an intermediate one. -/
  | escapeTail
  /-- In a sequence that a final character ends. -/
  | sequence
  /-- At the beginning of a device control. -/
  | device
  /-- Among the parameters of a device control. -/
  | deviceParameters
  /-- Behind an intermediate character of a device control. -/
  | deviceTail
  /-- In a text that a string terminator ends, or in what stands for one in a device control
  that is not as it should be. -/
  | string
  /-- In a text that a bell ends. -/
  | title
deriving DecidableEq, Repr

/-- Whether a control character is white space. -/
def isLayout (c : Char) : Bool := c == '\t' || c == '\n' || c == '\x0c' || c == '\r'

/-- Whether a character is or holds, in UTF-8, the byte that terminates strings. -/
def isTerminator (c : Char) : Bool := (String.utf8EncodeChar c).contains 0x9c

/-- The place behind a character that stands at a place, unless it is the same, and whether
the character is shown. -/
def Place.after (place : Place) (c : Char) : Option Place × Bool :=
  if c = '\x1b' then (some .escape, false)
  else if c = '\x18' ∨ c = '\x1a' then (some .outside, false)
  else match place with
    | .outside =>
      if c < ' ' then (none, isLayout c)
      else if c < '\x7f' then (none, true)
      else if c = '\x7f' then (none, false)
      else (some .outside, true)
    | .escape =>
      if c < ' ' then (none, isLayout c)
      else if c < '0' then (some .escapeTail, false)
      else if c = '[' then (some .sequence, false)
      else if c = ']' then (some .title, false)
      else if c = 'P' then (some .device, false)
      else if c = 'X' ∨ c = '^' ∨ c = '_' then (some .string, false)
      else (if c < '\x7f' then some .outside else none, false)
    | .escapeTail =>
      if c < ' ' then (none, isLayout c)
      else (if '0' ≤ c ∧ c < '\x7f' then some .outside else none, false)
    | .sequence =>
      if c < ' ' then (none, isLayout c)
      else (if '@' ≤ c ∧ c < '\x7f' then some .outside else none, false)
    | .device =>
      (if c < ' ' ∨ '\x7f' ≤ c then none
        else if c < '0' then some .deviceTail
        else if c < '@' then some .deviceParameters
        else some .string, false)
    | .deviceParameters =>
      (if c < ' ' ∨ '\x7f' ≤ c then none
        else if c < '0' then some .deviceTail
        else if c < '<' then none
        else some .string, false)
    | .deviceTail => (if '0' ≤ c ∧ c < '\x7f' then some .string else none, false)
    | .string => (if isTerminator c then some .outside else none, false)
    | .title => (if c = '\x07' then some .outside else none, false)

/-- What is shown of characters.  Once one has been shown, those behind it are taken to stand
outside, up to one that is not shown. -/
def visible (place : Place) (showing : Bool) : List Char → List Char
  | [] => []
  | c :: rest =>
    if showing then
      let (next, shown) := Place.outside.after c
      let place := next.getD place
      if shown then c :: visible place true rest
      else visible ((place.after c).1.getD place) false rest
    else
      let (next, shown) := place.after c
      if shown then c :: visible (next.getD place) true rest
      else visible (next.getD place) false rest

/-- What is shown of a text. -/
def remove (text : String) : String := String.ofList (visible .outside false text.toList)

end Control
end RemoteDebugger
