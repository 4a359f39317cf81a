/-
Cutting a list at a separator.

- `pieces sep xs`: the stretches between the separators, one more than there are separators.
- `not_mem_of_mem_pieces`, `intercalate_pieces`: the pieces hold no separator, and putting one between them gives the
  list back.
- `lines`: the pieces between line ends. A last line needs no line end, so nothing after the last line end is no line,
  and a carriage return right before a line end belongs to the line end.
-/
namespace SimpleGrammar.Text

variable {α : Type} [DecidableEq α]

/-- the stretches of a list between the occurrences of `sep` -/
def pieces (sep : α) : List α → List (List α)
  | [] => [[]]
  | x :: xs => if x = sep then [] :: pieces sep xs else (pieces sep xs).modifyHead (x :: ·)

theorem pieces_ne_nil (sep : α) (xs : List α) : pieces sep xs ≠ [] := by
  induction xs with
  | nil => simp [pieces]
  | cons x xs ih => by_cases h : x = sep <;> simp [pieces, h, ih]

theorem pieces_of_not_mem {sep : α} {xs : List α} (h : sep ∉ xs) : pieces sep xs = [xs] := by
  induction xs with
  | nil => rfl
  | cons x xs ih =>
    obtain ⟨hx, hxs⟩ := not_or.1 (mt List.mem_cons.2 h)
    simp [pieces, Ne.symm hx, ih hxs]

/-- a separator ends the piece before it -/
theorem pieces_append_cons {sep : α} {xs : List α} (h : sep ∉ xs) (ys : List α) :
    pieces sep (xs ++ sep :: ys) = xs :: pieces sep ys := by
  induction xs with
  | nil => simp [pieces]
  | cons x xs ih =>
    obtain ⟨hx, hxs⟩ := not_or.1 (mt List.mem_cons.2 h)
    simp [pieces, Ne.symm hx, ih hxs]

/-- no piece holds the separator -/
theorem not_mem_of_mem_pieces {sep : α} {xs p : List α} (hp : p ∈ pieces sep xs) : sep ∉ p := by
  induction xs generalizing p with
  | nil => simp_all [pieces]
  | cons x xs ih =>
    by_cases h : x = sep
    · rcases List.mem_cons.1 (by simpa [pieces, h] using hp) with rfl | hp
      · simp
      · exact ih hp
    · cases hps : pieces sep xs with
      | nil => exact absurd hps (pieces_ne_nil sep xs)
      | cons q qs =>
        rcases List.mem_cons.1 (by simpa [pieces, h, hps] using hp) with rfl | hp
        · simpa [Ne.symm h] using ih (hps ▸ List.mem_cons_self)
        · exact ih (hps ▸ List.mem_cons_of_mem _ hp)

/-- the pieces put together again with the separator between them -/
theorem intercalate_pieces (sep : α) (xs : List α) : [sep].intercalate (pieces sep xs) = xs := by
  induction xs with
  | nil => simp [pieces, List.intercalate]
  | cons x xs ih =>
    cases hps : pieces sep xs with
    | nil => exact absurd hps (pieces_ne_nil sep xs)
    | cons q qs =>
      rw [hps] at ih
      by_cases h : x = sep
      · simpa [pieces, h, hps, List.intercalate] using ih
      · cases qs <;> simpa [pieces, h, hps, List.intercalate] using ih

/-- the line without a final carriage return -/
def dropReturn (ret : α) (line : List α) : List α :=
  if line.getLast? = some ret then line.dropLast else line

/-- the lines of a text: `newline` ends a line, together with a `ret` right before it -/
def lines (newline ret : α) (text : List α) : List (List α) :=
  let parts := pieces newline text
  let unended := parts.getLast (pieces_ne_nil newline text)
  parts.dropLast.map (dropReturn ret) ++ if unended = [] then [] else [unended]

end SimpleGrammar.Text
