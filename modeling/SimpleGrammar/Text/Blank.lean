/-
White space: the twenty-five characters with the Unicode property White_Space, among them the line ends, the no-break
space and the ideographic space.

- `dropBlanks`: a text from its first character that is not white space.
-/
import SimpleGrammar.Text.CodePoints

namespace SimpleGrammar.Text

/-- code points with the property White_Space -/
def blankTable : CodePointTable where
  runs :=
    [⟨0x9, 0xd, 1⟩, ⟨0x20, 0x20, 1⟩, ⟨0x85, 0x85, 1⟩, ⟨0xa0, 0xa0, 1⟩, ⟨0x1680, 0x1680, 1⟩,
     ⟨0x2000, 0x200a, 1⟩, ⟨0x2028, 0x2029, 1⟩, ⟨0x202f, 0x202f, 1⟩, ⟨0x205f, 0x205f, 1⟩,
     ⟨0x3000, 0x3000, 1⟩]

/-- whether `c` is white space -/
def isBlank (c : Char) : Bool := blankTable.covers c.toNat

/-- the text without the white space before it -/
def dropBlanks (text : List Char) : List Char := text.dropWhile isBlank

theorem length_dropBlanks_le (text : List Char) : (dropBlanks text).length ≤ text.length :=
  (List.dropWhile_sublist isBlank).length_le

end SimpleGrammar.Text
