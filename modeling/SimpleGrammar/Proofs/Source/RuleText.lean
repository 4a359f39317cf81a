/-
Rule texts: alternatives as they are written between bars.

A text that states an alternative is ε, or it is made of symbols, none when it is empty. The spaces that are put
around the bars keep texts apart, so dashes and `>` next to a bar make no arrow with it, and each text is read by
itself.

- `alternativeOf_tokens`: a rule text is read as the alternative that it denotes.
- `tokens_intercalate`: texts with bars between them are the tokens of each of them, with bars between.
- `alternativesOf_tokens_intercalate`: they are read one by one, except that a single empty text states no alternative
  at all.
- `read_lineOf`: the same of rule lines.
-/
import SimpleGrammar.Proofs.Source.RuleLine

namespace SimpleGrammar

namespace Source

variable {text : List Char} {texts : List (List Char)} {n : Char}

/-! ## One text -/

/-- ε by itself, or symbols that make no arrow -/
def IsRuleText (text : List Char) : Prop := text = [epsilon] ∨ (∀ c ∈ text, Plain c) ∧ ¬ ['-', '>'] <:+: text

instance (text : List Char) : Decidable (IsRuleText text) :=
  -- the characters of the text are checked, and not all characters that there are
  letI : Decidable (∀ c ∈ text, Plain c) := List.decidableBAll Plain text
  inferInstanceAs (Decidable (text = [epsilon] ∨ (∀ c ∈ text, Plain c) ∧ ¬ ['-', '>'] <:+: text))

theorem IsRuleText.isBlank_of_mem (h : IsRuleText text) {c : Char} (hc : c ∈ text) : Text.isBlank c = false := by
  rcases h with rfl | ⟨hplain, -⟩
  · rw [List.mem_singleton.1 hc]
    decide
  · exact (hplain c hc).1

theorem tokens_of_plain (hplain : ∀ c ∈ text, Plain c) (harrow : ¬ ['-', '>'] <:+: text) :
    tokens text = text.map .symbol := by
  rw [tokens_of_arrowless harrow, List.filter_eq_self.2]
  · exact List.map_congr_left fun c hc => ofChar_of_plain (hplain c hc)
  · intro c hc
    rw [(hplain c hc).1]
    rfl

/-- **A rule text read.** -/
theorem alternativeOf_tokens (h : IsRuleText text) : alternativeOf (tokens text) = .ok (Rhs.ofText text) := by
  rcases h with rfl | ⟨hplain, harrow⟩
  · rfl
  · have hne : text ≠ [epsilon] := by
      rintro rfl
      exact (hplain epsilon List.mem_cons_self).2.2 rfl
    rw [tokens_of_plain hplain harrow, alternativeOf_eq_ok_iff, symbolsIn_map, Rhs.ofText, if_neg hne]
    simp

theorem bar_not_mem_tokens (h : IsRuleText text) : .bar ∉ tokens text :=
  (alternativeOf_eq_ok_iff.1 (alternativeOf_tokens h)).2.2.1

/-- only the empty text has no tokens -/
theorem eq_nil_of_tokens_eq_nil (h : IsRuleText text) (hts : tokens text = []) : text = [] := by
  refine List.eq_nil_iff_forall_not_mem.2 fun c hc => ?_
  have hblank := tokens_eq_nil_iff.1 hts c hc
  rw [h.isBlank_of_mem hc] at hblank
  cases hblank

/-! ## Texts with bars between them -/

theorem tokens_bar_blank (rest : List Char) : tokens ('|' :: ' ' :: rest) = .bar :: tokens rest := by
  rw [tokens_cons (by simp), if_neg (by decide), tokens_cons_blank (by decide)]
  rfl

/-- **Texts put together.** The spaces around a bar leave the tokens of the texts as they are. -/
theorem tokens_intercalate (texts : List (List Char)) :
    tokens ([' ', '|', ' '].intercalate texts) = [.bar].intercalate (texts.map tokens) := by
  induction texts with
  | nil => rfl
  | cons text rest ih =>
    cases rest with
    | nil => simp
    | cons text' rest =>
      simp only [List.map_cons, List.intercalate_cons_cons, List.append_assoc, List.cons_append,
        List.nil_append] at ih ⊢
      rw [tokens_append_blank (by decide), tokens_bar_blank, ih]

/-- **Texts read one by one.** Only a single empty text is not taken for an alternative. -/
theorem alternativesOf_tokens_intercalate (h : ∀ text ∈ texts, IsRuleText text) (hne : texts ≠ [[]]) :
    alternativesOf (tokens ([' ', '|', ' '].intercalate texts)) = .ok (texts.map Rhs.ofText) := by
  by_cases htexts : texts = []
  · subst htexts
    rfl
  · have hpieces : Text.pieces .bar (tokens ([' ', '|', ' '].intercalate texts)) = texts.map tokens := by
      rw [tokens_intercalate, Text.pieces_intercalate (mt List.map_eq_nil_iff.1 htexts)]
      intro ts hts
      obtain ⟨text, htext, rfl⟩ := List.mem_map.1 hts
      exact bar_not_mem_tokens (h text htext)
    have hbody : tokens ([' ', '|', ' '].intercalate texts) ≠ [] := by
      intro hnil
      rw [hnil] at hpieces
      obtain ⟨text, rfl, htext⟩ := List.map_eq_singleton_iff.1 hpieces.symm
      rw [eq_nil_of_tokens_eq_nil (h text List.mem_cons_self) htext] at hne
      exact hne rfl
    rw [alternativesOf_of_ne_nil hbody, hpieces, List.map_map, List.map_map]
    exact List.map_congr_left fun text htext => alternativeOf_tokens (h text htext)

/-! ## Rule lines -/

/-- the rule line of `n` and the texts of its alternatives, without a line end -/
def lineOf (n : Char) (texts : List (List Char)) : List Char :=
  n :: ' ' :: '-' :: '>' :: ' ' :: [' ', '|', ' '].intercalate texts

theorem tokens_lineOf (hn : Text.isUppercase n = true) (texts : List (List Char)) :
    tokens (lineOf n texts) = .symbol n :: .arrow :: tokens ([' ', '|', ' '].intercalate texts) := by
  have hplain := plain_of_isUppercase hn
  rw [lineOf, tokens_cons (by simp), if_neg (by simp [hplain.1]), ofChar_of_plain hplain, tokens_cons_blank (by decide),
    tokens_arrow, tokens_cons_blank (by decide)]

/-- **A rule line read.** -/
theorem read_lineOf (hn : Text.isUppercase n = true) (h : ∀ text ∈ texts, IsRuleText text) (hne : texts ≠ [[]]) :
    RuleLine.read (lineOf n texts) = .ok ⟨n, texts.map Rhs.ofText⟩ :=
  read_eq_ok_iff.2 ⟨_, tokens_lineOf hn texts, hn, alternativesOf_tokens_intercalate h hne⟩

theorem isRuleLine_lineOf (hn : Text.isUppercase n = true) (texts : List (List Char)) :
    isRuleLine (lineOf n texts) = true := by
  have hsemi : n ≠ ';' := by
    rintro rfl
    exact absurd hn (by decide)
  have hdrop : Text.dropBlanks (lineOf n texts) = lineOf n texts := by
    rw [Text.dropBlanks, lineOf, List.dropWhile_cons_of_neg (by simp [isBlank_of_isUppercase hn])]
  rw [isRuleLine, hdrop]
  exact decide_eq_true hsemi

/-- a rule line holds no white space but spaces, so no line end -/
theorem not_mem_lineOf {c : Char} (hn : Text.isUppercase n = true)
    (h : ∀ text ∈ texts, ∀ d ∈ text, Text.isBlank d = false) (hblank : Text.isBlank c = true) (hspace : c ≠ ' ') :
    c ∉ lineOf n texts := by
  intro hc
  have hnot : c = ' ' ∨ Text.isBlank c = false := by
    simp only [lineOf, List.mem_cons] at hc
    rcases hc with rfl | rfl | rfl | rfl | rfl | hc
    · exact .inr (isBlank_of_isUppercase hn)
    · exact .inl rfl
    · exact .inr (by decide)
    · exact .inr (by decide)
    · exact .inl rfl
    · rcases Text.mem_of_mem_intercalate hc with hsep | ⟨text, htext, hct⟩
      · simp only [List.mem_cons, List.not_mem_nil, or_false] at hsep
        rcases hsep with rfl | rfl | rfl
        · exact .inl rfl
        · exact .inr (by decide)
        · exact .inl rfl
      · exact .inr (h text htext c hct)
  rw [or_iff_right hspace, hblank] at hnot
  cases hnot

end Source

end SimpleGrammar
