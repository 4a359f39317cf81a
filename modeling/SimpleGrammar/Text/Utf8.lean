/-
Text that arrives as bytes.

- `decode`: the characters that the bytes spell in UTF-8, if they spell any.
- `decodeLines`: the bytes cut into lines first, so that one unreadable line does not hide the others.
-/
import SimpleGrammar.Text.Pieces

namespace SimpleGrammar.Text

/-- the characters spelled by `bytes`, `none` when they are not UTF-8 -/
def decode (bytes : List UInt8) : Option (List Char) :=
  (String.fromUTF8? ⟨bytes.toArray⟩).map String.toList

/-- the lines of a byte string, each decoded on its own -/
def decodeLines (bytes : List UInt8) : List (Option (List Char)) :=
  (lines 0x0a 0x0d bytes).map decode

end SimpleGrammar.Text
