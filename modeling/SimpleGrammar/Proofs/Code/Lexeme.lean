/-
The languages of the patterns.

Each pattern stands for a language of lexemes, said here without how far a match goes. What a pattern reaches in a
text is a lexeme of its language, and the first match is the reach of the first pattern that has one.

- `Kind.Matches`: the language of each pattern.
- `matches_of_reach_pos`: a match is in the language of its pattern.
- `firstMatch_cases`: which pattern decides.
- `isBlank_of_matches`, `newline_not_mem_of_matches`: white space stands only in strings and comments, and no line end
  in any.
-/
import Mathlib.Data.List.TakeWhile
import SimpleGrammar.Code.Scan
import SimpleGrammar.Proofs.Text.Blank

namespace SimpleGrammar.Code

variable {text lexeme : List Char} {kind : Kind} {c : Char}

/-- the lexemes that the pattern of a kind stands for; keywords and unknown characters have no pattern of their own -/
def Kind.Matches : Kind → List Char → Prop
  | .identifier, l => ∃ c rest, l = c :: rest ∧ isNameStart c = true ∧ ∀ x ∈ rest, isNameChar x = true
  | .number, l => l ≠ [] ∧ ∀ x ∈ l, Text.isDecimalDigit x = true
  | .string, l => ∃ body, l = '"' :: (body ++ ['"']) ∧ '\n' ∉ body
  | .comment, l => ∃ body, l = '/' :: '/' :: body ∧ '\n' ∉ body
  | .operator, l => l ≠ [] ∧ ∀ x ∈ l, isOperatorChar x = true
  | .specialChar, l => ∃ c, l = [c] ∧ isSpecialChar c = true
  | .keyword, _ => False
  | .unknown, _ => False

/-! ## What the patterns reach -/

theorem take_runLength (p : Char → Bool) (text : List Char) : text.take (runLength p text) = text.takeWhile p :=
  (List.prefix_iff_eq_take.1 (List.takeWhile_prefix p)).symm

/-- a run of characters that is not empty, and all of one class -/
theorem run_of_runLength_pos {p : Char → Bool} (h : 0 < runLength p text) :
    text.take (runLength p text) ≠ [] ∧ ∀ x ∈ text.take (runLength p text), p x = true := by
  rw [take_runLength]
  exact ⟨List.ne_nil_of_length_pos h, fun x hx => List.mem_takeWhile_imp hx⟩

theorem matches_identifierReach (h : 0 < identifierReach text) :
    Kind.identifier.Matches (text.take (identifierReach text)) := by
  cases text with
  | nil => simp [identifierReach] at h
  | cons c rest =>
    by_cases hc : isNameStart c = true
    · refine ⟨c, rest.takeWhile isNameChar, ?_, hc, fun x hx => List.mem_takeWhile_imp hx⟩
      simp only [identifierReach, hc, if_true, Nat.add_comm 1, List.take_succ_cons, take_runLength]
    · simp [identifierReach, hc] at h

theorem matches_stringReach (h : 0 < stringReach text) : Kind.string.Matches (text.take (stringReach text)) := by
  unfold stringReach at h ⊢
  split at h
  · next rest =>
    by_cases hclosed : rest[runLength (fun c => c ≠ '"' && c ≠ '\n') rest]? = some '"'
    · refine ⟨rest.takeWhile fun c => c ≠ '"' && c ≠ '\n', ?_, fun hmem => ?_⟩
      · simp only [hclosed, if_true]
        rw [List.take_succ_cons, List.take_add_one, take_runLength, hclosed]
        rfl
      · have := List.mem_takeWhile_imp hmem
        simp at this
    · simp only [if_neg hclosed, Nat.lt_irrefl] at h
  · contradiction

theorem matches_commentReach (h : 0 < commentReach text) : Kind.comment.Matches (text.take (commentReach text)) := by
  unfold commentReach at h ⊢
  split at h
  · next rest =>
    refine ⟨rest.takeWhile (· ≠ '\n'), ?_, fun hmem => ?_⟩
    · simp only [Nat.add_comm 2, List.take_succ_cons, take_runLength]
    · have := List.mem_takeWhile_imp hmem
      simp at this
  · contradiction

theorem matches_specialReach (h : 0 < specialReach text) :
    Kind.specialChar.Matches (text.take (specialReach text)) := by
  cases text with
  | nil => simp [specialReach] at h
  | cons c rest =>
    by_cases hc : isSpecialChar c = true
    · exact ⟨c, by simp [specialReach, hc], hc⟩
    · simp [specialReach, hc] at h

/-- **Matches.** What a pattern of the table reaches in a text is in the language of its kind. -/
theorem matches_of_reach_pos {p : Pattern} (hp : p ∈ patterns) (h : 0 < p.reach text) :
    p.kind.Matches (text.take (p.reach text)) := by
  simp only [patterns, List.mem_cons, List.not_mem_nil, or_false] at hp
  rcases hp with rfl | rfl | rfl | rfl | rfl | rfl
  · exact matches_identifierReach h
  · exact run_of_runLength_pos h
  · exact matches_stringReach h
  · exact matches_commentReach h
  · exact run_of_runLength_pos h
  · exact matches_specialReach h

/-- **The first pattern decides.** A text begins with what the first pattern that matches reaches, or with an unknown
character when none does. -/
theorem firstMatch_cases (text : List Char) :
    (∃ before p after, patterns = before ++ p :: after ∧ (∀ q ∈ before, q.reach text = 0) ∧ 0 < p.reach text ∧
      firstMatch text = (p.kind, p.reach text)) ∨
    (∀ p ∈ patterns, p.reach text = 0) ∧ firstMatch text = (.unknown, 1) := by
  have hskip : ∀ p : Pattern,
      (if p.reach text = 0 then none else some (p.kind, p.reach text)) = none ↔ p.reach text = 0 := by
    intro p
    split <;> simp_all
  unfold firstMatch
  cases hfound : patterns.findSome? fun p => if p.reach text = 0 then none else some (p.kind, p.reach text) with
  | none =>
    right
    refine ⟨fun p hp => ?_, rfl⟩
    exact (hskip p).1 (List.findSome?_eq_none_iff.1 hfound p hp)
  | some found =>
    left
    obtain ⟨before, p, after, hsplit, hp, hbefore⟩ := List.findSome?_eq_some_iff.1 hfound
    refine ⟨before, p, after, hsplit, fun q hq => (hskip q).1 (hbefore q hq), ?_⟩
    split at hp
    · contradiction
    · next hreach =>
      cases hp
      exact ⟨Nat.pos_of_ne_zero hreach, rfl⟩

/-! ## White space and line ends in lexemes -/

theorem isBlank_of_isNameChar (h : isNameChar c = true) : Text.isBlank c = false := by
  unfold isNameChar Char.isAlphanum Char.isAlpha Char.isUpper Char.isLower Char.isDigit at h
  simp only [Bool.or_eq_true, Bool.and_eq_true, decide_eq_true_eq, ge_iff_le, UInt32.le_iff_toNat_le] at h
  change ((((65 ≤ c.toNat ∧ c.toNat ≤ 90) ∨ (97 ≤ c.toNat ∧ c.toNat ≤ 122)) ∨ (48 ≤ c.toNat ∧ c.toNat ≤ 57)) ∨
    c = '_') at h
  rcases h with hrange | rfl
  · exact Text.isBlank_of_visible (by omega) (by omega)
  · decide

theorem isNameChar_of_isNameStart (h : isNameStart c = true) : isNameChar c = true := by
  simp only [isNameStart, isNameChar, Char.isAlphanum, Bool.or_eq_true] at h ⊢
  exact h.imp_left .inl

theorem isBlank_of_isOperatorChar (h : isOperatorChar c = true) : Text.isBlank c = false := by
  have hall : ['+', '-', '*', '/', '=', '<', '>', '!', '&', '|'].all (!Text.isBlank ·) = true := by decide
  simpa using List.all_eq_true.1 hall c (of_decide_eq_true h)

theorem isBlank_of_isSpecialChar (h : isSpecialChar c = true) : Text.isBlank c = false := by
  have hall : [';', ',', '(', ')', '\x7b', '\x7d'].all (!Text.isBlank ·) = true := by decide
  simpa using List.all_eq_true.1 hall c (of_decide_eq_true h)

/-- **White space in lexemes.** Only strings and comments hold any. -/
theorem isBlank_of_matches (h : kind.Matches lexeme) (hc : c ∈ lexeme) :
    Text.isBlank c = false ∨ kind = .comment ∨ kind = .string := by
  cases kind with
  | identifier =>
    obtain ⟨first, rest, rfl, hfirst, hrest⟩ := h
    rcases List.mem_cons.1 hc with rfl | hc
    · exact .inl (isBlank_of_isNameChar (isNameChar_of_isNameStart hfirst))
    · exact .inl (isBlank_of_isNameChar (hrest c hc))
  | number => exact .inl (Text.isBlank_of_isDecimalDigit (h.2 c hc))
  | string => exact .inr (.inr rfl)
  | comment => exact .inr (.inl rfl)
  | operator => exact .inl (isBlank_of_isOperatorChar (h.2 c hc))
  | specialChar =>
    obtain ⟨x, rfl, hx⟩ := h
    rw [List.mem_singleton.1 hc]
    exact .inl (isBlank_of_isSpecialChar hx)
  | keyword => exact h.elim
  | unknown => exact h.elim

/-- **No line end.** A lexeme stays on its line. -/
theorem newline_not_mem_of_matches (h : kind.Matches lexeme) : '\n' ∉ lexeme := by
  intro hmem
  rcases isBlank_of_matches h hmem with hblank | rfl | rfl
  · exact absurd hblank (by decide)
  · obtain ⟨body, rfl, hbody⟩ := h
    simp [hbody] at hmem
  · obtain ⟨body, rfl, hbody⟩ := h
    simp [hbody] at hmem

end SimpleGrammar.Code
