/-
Cutting a list undoes putting it together.

- `pieces_append_self`, `length_pieces`: a separator parts the pieces, so there is one piece more than there are
  separators.
- `exists_piece_at`: what is put in somewhere changes one piece.
- `pieces_intercalate`: lists with a separator between them are the pieces, if none of them holds the separator.
- `infix_intercalate`, `mem_of_mem_intercalate`: what is put together is lists and separators, and nothing else.
- `flatten_pieces`: the pieces hold everything but the separators.
- `pieces_flatMap_append`, `flatMap_append_inj`: lists with a separator after each of them are pieces, and can be told
  again.
- `lines_flatMap_append`: lines that are ended, and what comes after them.
- `lines_flatMap`, `lines_intercalate`: lists with a line end after each of them, or between them, are the lines.
- `lines_replicate_append`: a line after empty lines.
-/
import SimpleGrammar.Text.Pieces

namespace SimpleGrammar.Text

variable {α : Type} [DecidableEq α] {sep newline ret x : α} {xs p : List α} {xss : List (List α)}

theorem pieces_cons_self (sep : α) (xs : List α) : pieces sep (sep :: xs) = [] :: pieces sep xs := if_pos rfl

theorem pieces_cons_of_ne (h : x ≠ sep) : pieces sep (x :: xs) = (pieces sep xs).modifyHead (x :: ·) := if_neg h

/-- a separator parts the pieces -/
theorem pieces_append_self (xs ys : List α) : pieces sep (xs ++ sep :: ys) = pieces sep xs ++ pieces sep ys := by
  induction xs with
  | nil => exact pieces_cons_self sep ys
  | cons x xs ih =>
    rw [List.cons_append]
    by_cases hx : x = sep
    · rw [hx, pieces_cons_self, pieces_cons_self, ih, List.cons_append]
    · rw [pieces_cons_of_ne hx, pieces_cons_of_ne hx, ih]
      cases hps : pieces sep xs with
      | nil => exact absurd hps (pieces_ne_nil sep xs)
      | cons p ps => rfl

/-- what holds no separator goes in front of the first piece -/
theorem pieces_append_of_not_mem (h : sep ∉ xs) (ys : List α) :
    pieces sep (xs ++ ys) = (pieces sep ys).modifyHead (xs ++ ·) := by
  induction xs with
  | nil =>
    cases hys : pieces sep ys with
    | nil => exact absurd hys (pieces_ne_nil sep ys)
    | cons p ps => exact hys
  | cons x xs ih =>
    obtain ⟨hx, hxs⟩ := not_or.1 (mt List.mem_cons.2 h)
    rw [List.cons_append, pieces_cons_of_ne (Ne.symm hx), ih hxs, List.modifyHead_modifyHead]
    rfl

/-- there is one piece more than there are separators -/
theorem length_pieces (sep : α) (xs : List α) : (pieces sep xs).length = xs.count sep + 1 := by
  induction xs with
  | nil => rfl
  | cons x xs ih =>
    by_cases hx : x = sep
    · rw [hx, pieces_cons_self, List.length_cons, ih, List.count_cons_self]
    · rw [pieces_cons_of_ne hx, List.length_modifyHead, ih, List.count_cons_of_ne hx]

/-- at the beginning of a list or right after a separator, there is one piece for each separator before -/
theorem exists_pieces_of_ended (h : xs = [] ∨ xs.getLast? = some sep) :
    ∃ before, before.length = xs.count sep ∧ ∀ ys, pieces sep (xs ++ ys) = before ++ pieces sep ys := by
  rcases h with rfl | h
  · exact ⟨[], rfl, fun _ => rfl⟩
  · obtain ⟨init, rfl⟩ := List.getLast?_eq_some_iff.1 h
    refine ⟨pieces sep init, ?_, fun ys => ?_⟩
    · rw [length_pieces, List.count_append, List.count_singleton_self]
    · rw [List.append_assoc, List.singleton_append, pieces_append_self]

/-- the piece that a list leaves open, after its last separator -/
theorem exists_open_piece (sep : α) (xs : List α) :
    ∃ before p, p <:+ xs ∧ ∀ ys, pieces sep (xs ++ ys) = before ++ (pieces sep ys).modifyHead (p ++ ·) := by
  by_cases hsep : sep ∈ xs
  · obtain ⟨p, init, hxs, hp⟩ := List.eq_append_cons_of_mem (List.mem_reverse.2 hsep)
    obtain rfl : xs = init.reverse ++ sep :: p.reverse := by
      rw [← List.reverse_reverse xs, hxs]
      simp
    refine ⟨pieces sep init.reverse, p.reverse, ?_, fun ys => ?_⟩
    · exact (List.suffix_cons sep p.reverse).trans (List.suffix_append _ _)
    · rw [List.append_assoc, List.cons_append, pieces_append_self, pieces_append_of_not_mem (mt List.mem_reverse.1 hp)]
  · exact ⟨[], xs, List.suffix_refl xs, pieces_append_of_not_mem hsep⟩

/-- the first piece is the beginning of the list -/
theorem exists_first_piece (sep : α) (xs : List α) : ∃ p after, p <+: xs ∧ pieces sep xs = p :: after := by
  by_cases hsep : sep ∈ xs
  · obtain ⟨p, rest, rfl, hp⟩ := List.eq_append_cons_of_mem hsep
    exact ⟨p, pieces sep rest, List.prefix_append _ _, pieces_append_cons hp rest⟩
  · exact ⟨xs, [], List.prefix_refl xs, pieces_of_not_mem hsep⟩

/-- **The piece at a place.** What is put in there goes into one piece, unless it is a separator, and the other pieces
stay as they are. -/
theorem exists_piece_at (sep : α) (xs ys : List α) :
    ∃ before p q after, p <:+ xs ∧ q <+: ys ∧ pieces sep (xs ++ ys) = before ++ (p ++ q) :: after ∧
      ∀ x, x ≠ sep → pieces sep (xs ++ x :: ys) = before ++ (p ++ x :: q) :: after := by
  obtain ⟨before, p, hp, hxs⟩ := exists_open_piece sep xs
  obtain ⟨q, after, hq, hys⟩ := exists_first_piece sep ys
  refine ⟨before, p, q, after, hp, hq, ?_, fun x hx => ?_⟩
  · rw [hxs, hys, List.modifyHead_cons]
  · rw [hxs, pieces_cons_of_ne hx, hys, List.modifyHead_cons, List.modifyHead_cons]

/-- **Pieces put together.** Cutting gives back the lists that were joined. -/
theorem pieces_intercalate (hne : xss ≠ []) (h : ∀ xs ∈ xss, sep ∉ xs) : pieces sep ([sep].intercalate xss) = xss := by
  induction xss with
  | nil => exact absurd rfl hne
  | cons xs rest ih =>
    obtain ⟨hxs, hrest⟩ := List.forall_mem_cons.1 h
    cases rest with
    | nil => simpa [List.intercalate] using pieces_of_not_mem hxs
    | cons ys rest =>
      have hcut := pieces_append_cons hxs ([sep].intercalate (ys :: rest))
      rw [ih (List.cons_ne_nil _ _) hrest] at hcut
      simpa [List.intercalate, List.intersperse] using hcut

omit [DecidableEq α] in
/-- what is put together stands in the whole -/
theorem infix_intercalate {seps : List α} (h : xs ∈ xss) : xs <:+: seps.intercalate xss := by
  induction xss with
  | nil => cases h
  | cons ys rest ih =>
    cases rest with
    | nil =>
      obtain rfl := List.mem_singleton.1 h
      simp only [List.intercalate_singleton, List.infix_refl]
    | cons zs rest =>
      rw [List.intercalate_cons_cons]
      rcases List.mem_cons.1 h with rfl | h
      · rw [List.append_assoc]
        exact (List.prefix_append _ _).isInfix
      · exact (ih h).trans (List.suffix_append _ _).isInfix

omit [DecidableEq α] in
/-- the whole is made of the separators and what is put together -/
theorem mem_of_mem_intercalate {seps : List α} (h : x ∈ seps.intercalate xss) : x ∈ seps ∨ ∃ xs ∈ xss, x ∈ xs := by
  induction xss with
  | nil => cases h
  | cons ys rest ih =>
    cases rest with
    | nil =>
      rw [List.intercalate_singleton] at h
      exact .inr ⟨ys, List.mem_cons_self, h⟩
    | cons zs rest =>
      rw [List.intercalate_cons_cons, List.mem_append, List.mem_append] at h
      rcases h with (h | h) | h
      · exact .inr ⟨ys, List.mem_cons_self, h⟩
      · exact .inl h
      · exact (ih h).imp_right fun ⟨xs, hxs, hx⟩ => ⟨xs, List.mem_cons_of_mem _ hxs, hx⟩

/-- only the separators are lost in the pieces -/
theorem flatten_pieces (sep : α) (xs : List α) : (pieces sep xs).flatten = xs.filter (· ≠ sep) := by
  induction xs with
  | nil => rfl
  | cons x xs ih =>
    by_cases hx : x = sep
    · rw [hx, pieces_cons_self, List.flatten_cons, List.nil_append, ih, List.filter_cons_of_neg (by simp)]
    · rw [pieces_cons_of_ne hx, List.filter_cons_of_pos (by simpa using hx), ← ih]
      cases hps : pieces sep xs with
      | nil => exact absurd hps (pieces_ne_nil sep xs)
      | cons p ps => rfl

/-- what stands in a piece is what is no separator -/
theorem exists_mem_pieces_iff : (∃ p ∈ pieces sep xs, x ∈ p) ↔ x ∈ xs ∧ x ≠ sep := by
  rw [← List.mem_flatten, flatten_pieces, List.mem_filter, decide_eq_true_iff]

/-- parts with a separator after each of them are the first pieces -/
theorem pieces_flatMap_append (h : ∀ xs ∈ xss, sep ∉ xs) (ys : List α) :
    pieces sep (xss.flatMap (· ++ [sep]) ++ ys) = xss ++ pieces sep ys := by
  induction xss with
  | nil => rfl
  | cons xs rest ih =>
    obtain ⟨hxs, hrest⟩ := List.forall_mem_cons.1 h
    rw [List.flatMap_cons, List.append_assoc, List.append_assoc, List.singleton_append, pieces_append_cons hxs,
      ih hrest, List.cons_append]

/-- parts with a separator after each of them can be told from what they make -/
theorem flatMap_append_inj {yss : List (List α)} (hx : ∀ xs ∈ xss, sep ∉ xs) (hy : ∀ ys ∈ yss, sep ∉ ys)
    (h : xss.flatMap (· ++ [sep]) = yss.flatMap (· ++ [sep])) : xss = yss := by
  have hcut := pieces_flatMap_append hx []
  rw [h, pieces_flatMap_append hy] at hcut
  exact (List.append_cancel_right hcut).symm

/-- without a return at the end a line stays as it is -/
theorem map_dropReturn (h : ∀ xs ∈ xss, xs.getLast? ≠ some ret) : xss.map (dropReturn ret) = xss := by
  have hdrop : ∀ xs ∈ xss, dropReturn ret xs = xs := fun xs hxs => if_neg (h xs hxs)
  rw [List.map_congr_left hdrop, List.map_id']

/-- lines that are ended are the first lines, each without the return before its end -/
theorem lines_flatMap_append (h : ∀ xs ∈ xss, newline ∉ xs) (ys : List α) :
    lines newline ret (xss.flatMap (· ++ [newline]) ++ ys) = xss.map (dropReturn ret) ++ lines newline ret ys := by
  have hcut := pieces_flatMap_append h ys
  have hne := pieces_ne_nil newline ys
  simp only [lines, hcut, List.dropLast_append_of_ne_nil hne, List.getLast_append_of_ne_nil _ hne, List.map_append,
    List.append_assoc]

/-- a line without line end -/
theorem lines_of_not_mem (h : newline ∉ xs) (hne : xs ≠ []) : lines newline ret xs = [xs] := by
  have hcut := pieces_of_not_mem h
  simp only [lines, hcut, List.dropLast_singleton, List.map_nil, List.getLast_singleton, if_neg hne, List.nil_append]

/-- **Lines put together.** Cutting gives back the lines that were ended, if they hold no line end and no return is
right before it. -/
theorem lines_flatMap (hn : ∀ xs ∈ xss, newline ∉ xs) (hr : ∀ xs ∈ xss, xs.getLast? ≠ some ret) :
    lines newline ret (xss.flatMap (· ++ [newline])) = xss := by
  have hcut : lines newline ret (xss.flatMap (· ++ [newline]) ++ []) = xss.map (dropReturn ret) ++ [] :=
    lines_flatMap_append hn []
  rw [List.append_nil, List.append_nil] at hcut
  rw [hcut, map_dropReturn hr]

/-- **Lines between line ends.** The last of them needs none, if it has a character. -/
theorem lines_intercalate (hn : ∀ xs ∈ xss, newline ∉ xs) (hr : ∀ xs ∈ xss, xs.getLast? ≠ some ret) (hne : [] ∉ xss) :
    lines newline ret ([newline].intercalate xss) = xss := by
  by_cases hxss : xss = []
  · subst hxss
    rfl
  · have hlast : xss.getLast hxss ≠ [] := fun hempty => hne (hempty ▸ List.getLast_mem hxss)
    have hcut := pieces_intercalate hxss hn
    simp only [lines, hcut, if_neg hlast]
    rw [map_dropReturn fun xs hxs => hr xs (List.dropLast_subset _ hxs), List.dropLast_concat_getLast]

theorem pieces_replicate_append (k : Nat) (xs : List α) :
    pieces sep (List.replicate k sep ++ xs) = List.replicate k [] ++ pieces sep xs := by
  induction k with
  | zero => rfl
  | succ k ih => rw [List.replicate_succ, List.cons_append, pieces_cons_self, ih, List.replicate_succ, List.cons_append]

/-- **Lines after empty lines.** A line that is not ended is the last one, and is taken as it is. -/
theorem lines_replicate_append {k : Nat} (h : newline ∉ xs) (hne : xs ≠ []) :
    lines newline ret (List.replicate k newline ++ xs) = List.replicate k [] ++ [xs] := by
  have hcut : pieces newline (List.replicate k newline ++ xs) = List.replicate k [] ++ [xs] := by
    rw [pieces_replicate_append, pieces_of_not_mem h]
  simp only [lines, hcut, List.dropLast_concat, List.getLast_concat, if_neg hne, List.map_replicate]
  rfl

/-- no line has a line end -/
theorem not_mem_of_mem_lines (h : p ∈ lines newline ret xs) : newline ∉ p := by
  have hpieces : ∀ q ∈ pieces newline xs, newline ∉ q := fun q hq => not_mem_of_mem_pieces hq
  rw [lines, List.mem_append] at h
  rcases h with h | h
  · obtain ⟨q, hq, rfl⟩ := List.mem_map.1 h
    have hmem := hpieces q (List.dropLast_subset _ hq)
    rw [dropReturn]
    split
    · exact fun hp => hmem (List.dropLast_subset _ hp)
    · exact hmem
  · split at h
    · cases h
    · obtain rfl := List.mem_singleton.1 h
      exact hpieces _ (List.getLast_mem _)

end SimpleGrammar.Text
