/-
# The text of listings

A listing is ASCII as far as the texts of its instructions are: numbers are written in
hexadecimal digits, and the names of the symbols are ASCII.  But these may break its lines.
-/
import RemoteDebugger.Instruction.Listing
import RemoteDebugger.Proofs.Symbol.Scan

namespace RemoteDebugger

open Message (PlainText)

namespace Hex

lemma plainText_word8 (w : UInt32) : PlainText none (word8 w) :=
  Message.plainText_ofCodes (isAscii_padded 8 _) fun _ _ => Option.some_ne_none _

lemma plainText_text (n : Nat) : PlainText none (text n) :=
  Message.plainText_ofCodes (isAscii_padded _ n) fun _ _ => Option.some_ne_none _

end Hex

namespace Instruction

variable {symbols : SymbolTable}

lemma plainText_targetNote (hsymbols : symbols.Plain) (address word : UInt32) :
    PlainText none (targetNote address word symbols) := by
  simp only [targetNote]
  split
  · decide
  · split
    · decide
    · next name distance hname =>
      have hplain : PlainText none name := (hsymbols.lookup hname).ascii
      split
      · exact .append (by decide) hplain
      · exact .append (.append (.append (by decide) hplain) (by decide)) (Hex.plainText_text _)

lemma plainText_line (hsymbols : symbols.Plain) (address word : UInt32) {text : String}
    (htext : PlainText none text) : PlainText none (line address word text symbols) := by
  have hhead : PlainText none (Hex.word8 address ++ ": " ++ Hex.word8 word ++ "  ") :=
    .append (.append (.append (Hex.plainText_word8 address) (by decide)) (Hex.plainText_word8 word))
      (by decide)
  refine .append (.append (hhead.append htext) ?_) (plainText_targetNote hsymbols address word)
  split
  · next name hname =>
    exact .append (.append (by decide) (hsymbols.nameAt? hname).ascii) (by decide)
  · decide

lemma plainText_lines {text : UInt32 → UInt32 → String}
    (htext : ∀ address word, PlainText none (text address word)) (hsymbols : symbols.Plain)
    (address : UInt32) (words : List UInt32) :
    ∀ line ∈ lines text symbols address words, PlainText none line := by
  induction words generalizing address with
  | nil => exact fun _ hmem => absurd hmem List.not_mem_nil
  | cons word rest ih =>
    exact List.forall_mem_cons.2
      ⟨plainText_line hsymbols address word (htext address word), ih (address + 4)⟩

end Instruction
end RemoteDebugger
