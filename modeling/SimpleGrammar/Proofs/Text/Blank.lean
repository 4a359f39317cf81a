/-
White space apart from other characters.

- `isBlank_of_covers`: a table that covers no white space leaves none among its characters.
- `isBlank_of_isUppercase`, `isBlank_of_isDecimalDigit`, `isBlank_of_visible`: capitals, digits and the printed
  characters of ASCII are no white space.
- `dropBlanks_eq_nil_iff`, `exists_blanks_of_dropBlanks`: what is dropped in front of a text.
- `dropBlanks_append_of_blank`, `dropBlanks_append_of_ne_nil`: what is dropped when the text goes on.
-/
import Mathlib.Data.List.TakeWhile
import SimpleGrammar.Text.Blank
import SimpleGrammar.Text.Digit
import SimpleGrammar.Text.Uppercase

namespace SimpleGrammar

namespace Text

variable {c : Char} {text rest : List Char}

/-! ## Characters -/

theorem isBlank_iff : isBlank c = true ↔ ∃ r ∈ blankTable.runs, r.Contains c.toNat := blankTable.covers_iff _

/-- a table whose runs avoid those of white space covers no white space -/
theorem isBlank_of_covers {table : CodePointTable}
    (hapart : ∀ r ∈ blankTable.runs, ∀ q ∈ table.runs, r.last < q.first ∨ q.last < r.first)
    (h : table.covers c.toNat = true) : isBlank c = false := by
  by_contra hblank
  obtain ⟨r, hr, hfirst, hlast, -⟩ := isBlank_iff.1 (eq_true_of_ne_false hblank)
  obtain ⟨q, hq, hfirst', hlast', -⟩ := (table.covers_iff _).1 h
  have := hapart r hr q hq
  omega

/-- the printed characters of ASCII are no white space -/
theorem isBlank_of_visible (hlow : 0x21 ≤ c.toNat) (hhigh : c.toNat ≤ 0x7e) : isBlank c = false := by
  by_contra hblank
  obtain ⟨r, hr, hfirst, hlast, -⟩ := isBlank_iff.1 (eq_true_of_ne_false hblank)
  have hall : ∀ r ∈ blankTable.runs, r.last < 0x21 ∨ 0x7e < r.first := by decide
  have := hall r hr
  omega

/-- no digit of any script is white space -/
theorem isBlank_of_isDecimalDigit (h : isDecimalDigit c = true) : isBlank c = false :=
  isBlank_of_covers (by decide +kernel) h

/-! ## Texts -/

theorem dropBlanks_eq_nil_iff : dropBlanks text = [] ↔ ∀ c ∈ text, isBlank c = true := List.dropWhile_eq_nil_iff

/-- what is dropped is white space, and what is left does not begin with any -/
theorem exists_blanks_of_dropBlanks (h : dropBlanks text = c :: rest) :
    ∃ gap, text = gap ++ c :: rest ∧ (∀ x ∈ gap, isBlank x = true) ∧ isBlank c = false := by
  refine ⟨text.takeWhile isBlank, ?_, fun x hx => List.mem_takeWhile_imp hx, ?_⟩
  · rw [← h]
    exact List.takeWhile_append_dropWhile.symm
  · have hhead := List.head?_dropWhile_not isBlank text
    unfold dropBlanks at h
    simpa [h] using hhead

theorem dropBlanks_append_of_blank (h : ∀ c ∈ text, isBlank c = true) (rest : List Char) :
    dropBlanks (text ++ rest) = dropBlanks rest := List.dropWhile_append_of_pos h

/-- where something is left of a text, no more is dropped if the text goes on -/
theorem dropBlanks_append_of_ne_nil (h : dropBlanks text ≠ []) (rest : List Char) :
    dropBlanks (text ++ rest) = dropBlanks text ++ rest := by
  unfold dropBlanks at h ⊢
  rw [List.dropWhile_append, if_neg (by simpa using h)]

end Text

/-- no character is both uppercase and white space -/
theorem isBlank_of_isUppercase {c : Char} (h : Text.isUppercase c = true) : Text.isBlank c = false :=
  Text.isBlank_of_covers (by decide +kernel) h

end SimpleGrammar
