/-
What the tokens of a line say of its characters.

- `tokens_append`, `tokens_append_blank`: stretches that meet without an arrow, or with white space between them, have
  their tokens side by side.
- `exists_of_tokens_eq_cons`: where the first token of a line stands.
- `arrow_mem_tokens_iff`: arrows come from a dash directly followed by `>`, and from nothing else.
- `tokens_of_arrowless`: without such a pair every character but white space is a token by itself.
- `plain_of_symbol_mem`: a symbol is no white space, no bar and not ε.
-/
import SimpleGrammar.Proofs.Text.Blank
import SimpleGrammar.Source.Token

namespace SimpleGrammar

namespace Source

/-! ## One token after the other -/

theorem tokens_arrow (rest : List Char) : tokens ('-' :: '>' :: rest) = .arrow :: tokens rest := rfl

/-- a character that does not begin an arrow -/
theorem tokens_cons {c : Char} {rest : List Char} (h : ¬ (c = '-' ∧ rest.head? = some '>')) :
    tokens (c :: rest) = if Text.isBlank c then tokens rest else Token.ofChar c :: tokens rest := by
  rw [tokens]
  rintro rest' rfl rfl
  exact h ⟨rfl, rfl⟩

theorem tokens_cons_blank {c : Char} (hc : Text.isBlank c = true) (rest : List Char) :
    tokens (c :: rest) = tokens rest := by
  rw [tokens_cons, if_pos hc]
  rintro ⟨rfl, -⟩
  exact absurd hc (by decide)

/-- **Tokens of what is put together.** They are those of the parts, unless a dash meets a `>`. -/
theorem tokens_append {xs ys : List Char} (h : ¬ (xs.getLast? = some '-' ∧ ys.head? = some '>')) :
    tokens (xs ++ ys) = tokens xs ++ tokens ys := by
  have hlast : ∀ {c : Char} {rest : List Char}, rest.getLast? = some '-' → (c :: rest).getLast? = some '-' := by
    intro c rest hrest
    rw [List.getLast?_cons, hrest, Option.getD_some]
  fun_induction tokens xs with
  | case1 => rfl
  | case2 rest ih =>
    rw [List.cons_append, List.cons_append, tokens_arrow, ih, List.cons_append]
    exact fun hrest => h ⟨hlast (hlast hrest.1), hrest.2⟩
  | case3 c rest hne hc ih =>
    rw [List.cons_append, tokens_cons_blank hc, ih]
    exact fun hrest => h ⟨hlast hrest.1, hrest.2⟩
  | case4 c rest hne hc ih =>
    rw [List.cons_append, tokens_cons, if_neg hc, ih, List.cons_append]
    · exact fun hrest => h ⟨hlast hrest.1, hrest.2⟩
    · -- a dash that begins an arrow ends `xs`, or begins one in `xs` already
      rintro ⟨rfl, hhead⟩
      cases rest with
      | nil => exact h ⟨rfl, hhead⟩
      | cons d rest =>
        obtain rfl : d = '>' := by simpa using hhead
        exact hne rest rfl rfl

/-- **White space is a boundary.** The tokens before it and after it do not touch. -/
theorem tokens_append_blank {b : Char} (hb : Text.isBlank b = true) (xs ys : List Char) :
    tokens (xs ++ b :: ys) = tokens xs ++ tokens ys := by
  rw [tokens_append, tokens_cons_blank hb]
  rintro ⟨-, hhead⟩
  obtain rfl : b = '>' := by simpa using hhead
  exact absurd hb (by decide)

theorem tokens_eq_nil_iff {line : List Char} : tokens line = [] ↔ ∀ c ∈ line, Text.isBlank c = true := by
  fun_induction tokens line with
  | case1 => simp
  | case2 rest ih => exact iff_of_false (List.cons_ne_nil _ _) fun h => absurd (h '-' List.mem_cons_self) (by decide)
  | case3 c rest hne hc ih => rw [ih, List.forall_mem_cons, and_iff_right hc]
  | case4 c rest hne hc ih => exact iff_of_false (List.cons_ne_nil _ _) fun h => hc (h c List.mem_cons_self)

theorem spelling_ofChar (c : Char) : (Token.ofChar c).spelling = [c] := by
  rw [Token.ofChar]
  split
  · next hbar => rw [hbar]; rfl
  · split
    · next heps => rw [heps]; rfl
    · rfl

/-- **The first token.** Before it there is white space, and the other tokens are those of what is after it. -/
theorem exists_of_tokens_eq_cons {line : List Char} {t : Token} {ts : List Token} (h : tokens line = t :: ts) :
    ∃ gap rest, line = gap ++ t.spelling ++ rest ∧ (∀ c ∈ gap, Text.isBlank c = true) ∧ tokens rest = ts := by
  fun_induction tokens line with
  | case1 => cases h
  | case2 rest ih =>
    obtain ⟨rfl, rfl⟩ := List.cons.inj h
    exact ⟨[], rest, rfl, by simp, rfl⟩
  | case3 c rest hne hc ih =>
    obtain ⟨gap, rest', rfl, hgap, hts⟩ := ih h
    exact ⟨c :: gap, rest', rfl, List.forall_mem_cons.2 ⟨hc, hgap⟩, hts⟩
  | case4 c rest hne hc ih =>
    obtain ⟨rfl, rfl⟩ := List.cons.inj h
    refine ⟨[], rest, ?_, by simp, rfl⟩
    rw [List.nil_append, spelling_ofChar, List.singleton_append]

/-! ## Arrows -/

theorem ofChar_ne_arrow (c : Char) : Token.ofChar c ≠ .arrow := by
  rw [Token.ofChar]
  split
  · exact Token.noConfusion
  · split <;> exact Token.noConfusion

/-- a character that does not begin an arrow begins no dash and `>` -/
theorem arrow_infix_cons_iff {c : Char} {rest : List Char} (h : ∀ rest', c = '-' → rest = '>' :: rest' → False) :
    ['-', '>'] <:+: c :: rest ↔ ['-', '>'] <:+: rest := by
  rw [List.infix_cons_iff, or_iff_right]
  rintro ⟨rest', heq⟩
  simp only [List.cons_append, List.nil_append, List.cons.injEq] at heq
  exact h rest' heq.1.symm heq.2.symm

/-- **Arrows.** A line has an arrow among its tokens when a dash is directly followed by `>` in it. -/
theorem arrow_mem_tokens_iff {line : List Char} : Token.arrow ∈ tokens line ↔ ['-', '>'] <:+: line := by
  fun_induction tokens line with
  | case1 => simp
  | case2 rest ih => exact iff_of_true List.mem_cons_self ⟨[], rest, rfl⟩
  | case3 c rest h hc ih => rw [ih, arrow_infix_cons_iff h]
  | case4 c rest h hc ih =>
    rw [List.mem_cons, or_iff_right (ofChar_ne_arrow c).symm, ih, arrow_infix_cons_iff h]

/-- without an arrow the tokens are the characters other than white space, each by itself -/
theorem tokens_of_arrowless {line : List Char} (h : ¬ ['-', '>'] <:+: line) :
    tokens line = (line.filter (!Text.isBlank ·)).map Token.ofChar := by
  fun_induction tokens line with
  | case1 => rfl
  | case2 rest ih => exact absurd ⟨[], rest, rfl⟩ h
  | case3 c rest hne hc ih =>
    rw [arrow_infix_cons_iff hne] at h
    rw [ih h, List.filter_cons_of_neg (by simp [hc])]
  | case4 c rest hne hc ih =>
    rw [arrow_infix_cons_iff hne] at h
    rw [ih h, List.filter_cons_of_pos (by simp [hc]), List.map_cons]

/-! ## Symbols -/

/-- the characters that are symbols when they are no part of an arrow -/
def Plain (c : Char) : Prop := Text.isBlank c = false ∧ c ≠ '|' ∧ c ≠ epsilon

instance : DecidablePred Plain := fun c => inferInstanceAs (Decidable (Text.isBlank c = false ∧ c ≠ '|' ∧ c ≠ epsilon))

theorem ofChar_of_plain {c : Char} (h : Plain c) : Token.ofChar c = .symbol c := by
  rw [Token.ofChar, if_neg h.2.1, if_neg h.2.2]

theorem plain_of_isUppercase {n : Char} (h : Text.isUppercase n = true) : Plain n := by
  refine ⟨isBlank_of_isUppercase h, ?_, ?_⟩
  · rintro rfl
    exact absurd h (by decide)
  · rintro rfl
    exact absurd h (by decide)

/-- a symbol among the tokens is a character that is a symbol -/
theorem plain_of_symbol_mem {line : List Char} {c : Char} (h : Token.symbol c ∈ tokens line) : Plain c := by
  fun_induction tokens line with
  | case1 => cases h
  | case2 rest ih => exact ih ((List.mem_cons.1 h).resolve_left Token.noConfusion)
  | case3 d rest hne hd ih => exact ih h
  | case4 d rest hne hd ih =>
    rcases List.mem_cons.1 h with heq | h
    · rw [Token.ofChar] at heq
      split at heq
      · cases heq
      · next hbar =>
        split at heq
        · cases heq
        · next heps =>
          cases heq
          exact ⟨by simpa using hd, hbar, heps⟩
    · exact ih h

end Source

end SimpleGrammar
