/-
# Blanks

What parts the words of a line typed by a user, and what may stand around an address: the
characters that Unicode calls white space.
-/

namespace RemoteDebugger
namespace Text

/-- The characters with the Unicode property White_Space, as ranges of code points. -/
def blankRanges : List (Nat × Nat) :=
  [(0x09, 0x0d), (0x20, 0x20), (0x85, 0x85), (0xa0, 0xa0), (0x1680, 0x1680), (0x2000, 0x200a),
    (0x2028, 0x2029), (0x202f, 0x202f), (0x205f, 0x205f), (0x3000, 0x3000)]

/-- Whether a character is a blank. -/
def isBlank (c : Char) : Bool :=
  blankRanges.any fun (first, last) => first ≤ c.toNat && c.toNat ≤ last

/-- A text without the blanks at its start. -/
def trimStart (text : List Char) : List Char := text.dropWhile isBlank

/-- A text without the blanks at both ends. -/
def trim (text : String) : String :=
  String.ofList (trimStart (trimStart text.toList).reverse).reverse

/-- The words that are collected, `word` being the one that is not at its end yet, both in
reverse. -/
def collectWords (word : List Char) : List Char → List (List Char)
  | [] => if word.isEmpty then [] else [word.reverse]
  | c :: rest =>
    if isBlank c then
      if word.isEmpty then collectWords [] rest else word.reverse :: collectWords [] rest
    else collectWords (c :: word) rest

/-- The words of a text: what stands between blanks. -/
def words (text : String) : List String :=
  (collectWords [] text.toList).map String.ofList

end Text
end RemoteDebugger
