/-
Scanning loses nothing but white space.

Taking tokens one after the other comes to an end on every text, and there is one list of tokens that it gives
(`Scans`). What stands between them is white space, and the tokens are pieces of the text that begin with something
else.

- `next?_eq_none_iff`, `exists_gap_of_next?`: what taking one token leaves.
- `scans_iff`: taking tokens until none is left gives the tokens of the text.
- `tokenize_lossless`: the text is its lexemes with white space before, between and after them.
-/
import SimpleGrammar.Proofs.Code.Lexeme

namespace SimpleGrammar.Code

variable {text rest : List Char} {t : Token} {ts : List Token} {c : Char}

/-! ## One token -/

/-- a lexeme as scanning cuts it out of a text -/
structure Token.WellFormed (t : Token) : Prop where
  /-- it begins with a character that is no white space -/
  begins : ∃ c tail, t.lexeme = c :: tail ∧ Text.isBlank c = false
  /-- white space inside of it is that of a comment or a string -/
  blank : ∀ c ∈ t.lexeme, Text.isBlank c = true → t.kind = .comment ∨ t.kind = .string
  /-- it stays on its line -/
  oneLine : '\n' ∉ t.lexeme

/-- only identifiers are told apart by their lexemes -/
theorem kindOf_of_ne {kind : Kind} (h : kind ≠ .identifier) (lexeme : List Char) : kindOf kind lexeme = kind :=
  if_neg fun hkeyword => h hkeyword.1

/-- what the first match cuts off a text that begins with no white space -/
theorem wellFormed_of_firstMatch (hc : Text.isBlank c = false) :
    Token.WellFormed ⟨kindOf (firstMatch (c :: rest)).1 ((c :: rest).take (firstMatch (c :: rest)).2),
      (c :: rest).take (firstMatch (c :: rest)).2⟩ := by
  have hbegins : ∀ n, 0 < n → ∃ d tail, (c :: rest).take n = d :: tail ∧ Text.isBlank d = false := by
    intro n hn
    exact ⟨c, rest.take (n - 1), List.take_cons hn, hc⟩
  rcases firstMatch_cases (c :: rest) with ⟨before, p, after, hsplit, -, hpos, hfound⟩ | ⟨-, hfound⟩
  · have hp : p ∈ patterns := by simp [hsplit]
    have hmatches := matches_of_reach_pos hp hpos
    rw [hfound]
    refine ⟨hbegins _ hpos, ?_, newline_not_mem_of_matches hmatches⟩
    intro d hd hblank
    rcases isBlank_of_matches hmatches hd with hnot | hkind | hkind
    · rw [hblank] at hnot
      contradiction
    · left
      simp only [hkind]
      exact kindOf_of_ne (by decide) _
    · right
      simp only [hkind]
      exact kindOf_of_ne (by decide) _
  · rw [hfound]
    refine ⟨hbegins 1 Nat.one_pos, ?_, ?_⟩
    · intro d hd hblank
      rw [List.mem_singleton.1 hd, hc] at hblank
      contradiction
    · intro hmem
      rw [← List.mem_singleton.1 hmem] at hc
      exact absurd hc (by decide)

/-- there is no token where there is only white space -/
theorem next?_eq_none_iff : next? text = none ↔ ∀ c ∈ text, Text.isBlank c = true := by
  rw [← Text.dropBlanks_eq_nil_iff]
  unfold next?
  cases Text.dropBlanks text <;> simp

/-- **One token.** Taking a token leaves what follows it, and drops only the white space before it. -/
theorem exists_gap_of_next? (h : next? text = some (t, rest)) :
    ∃ gap, text = gap ++ (t.lexeme ++ rest) ∧ (∀ c ∈ gap, Text.isBlank c = true) ∧ t.WellFormed := by
  unfold next? at h
  split at h
  · contradiction
  · next c tail hdrop =>
    obtain ⟨gap, rfl, hgap, hc⟩ := Text.exists_blanks_of_dropBlanks hdrop
    simp only [Option.some.injEq, Prod.mk.injEq] at h
    obtain ⟨rfl, rfl⟩ := h
    refine ⟨gap, ?_, hgap, wellFormed_of_firstMatch hc⟩
    rw [List.take_append_drop]

/-! ## All tokens -/

/-- tokens taken from a text one after the other, until none is left -/
inductive Scans : List Char → List Token → Prop where
  | done {text : List Char} (h : next? text = none) : Scans text []
  | token {text rest : List Char} {t : Token} {ts : List Token} (h : next? text = some (t, rest))
      (hrest : Scans rest ts) : Scans text (t :: ts)

theorem tokenize_of_next?_eq_none (h : next? text = none) : tokenize text = [] := by
  unfold tokenize
  split
  · rfl
  · next hsome => simp [h] at hsome

theorem tokenize_of_next?_eq_some (h : next? text = some (t, rest)) : tokenize text = t :: tokenize rest := by
  rw [tokenize]
  split
  · next hnone => simp [h] at hnone
  · next hsome =>
    rw [h] at hsome
    cases hsome
    rfl

/-- **Scanning ends.** On every text tokens are taken until none is left, and they are the tokens of the text. -/
theorem scans_iff : Scans text ts ↔ ts = tokenize text := by
  constructor
  · intro h
    induction h with
    | done h => exact (tokenize_of_next?_eq_none h).symm
    | token h _ ih => rw [tokenize_of_next?_eq_some h, ih]
  · intro h
    subst h
    fun_induction tokenize text with
    | case1 text hnone => exact .done hnone
    | case2 text t rest hsome ih => exact .token hsome ih

/-- the lexemes of the tokens in order, each with a gap after it -/
def spaced (ts : List Token) (gaps : List (List Char)) : List Char :=
  (List.zipWith (fun t gap => t.lexeme ++ gap) ts gaps).flatten

theorem exists_gaps_of_scans (h : Scans text ts) :
    ∃ before gaps, gaps.length = ts.length ∧ text = before ++ spaced ts gaps ∧
      ∀ gap ∈ before :: gaps, ∀ c ∈ gap, Text.isBlank c = true := by
  induction h with
  | @done text h =>
    refine ⟨text, [], rfl, (List.append_nil text).symm, ?_⟩
    simpa using next?_eq_none_iff.1 h
  | @token text rest t ts h _ ih =>
    obtain ⟨before, gaps, hlength, rfl, hblank⟩ := ih
    obtain ⟨gap, rfl, hgap, -⟩ := exists_gap_of_next? h
    -- the white space in front of the rest is the gap after the token
    refine ⟨gap, before :: gaps, congrArg (· + 1) hlength, ?_, List.forall_mem_cons.2 ⟨hgap, hblank⟩⟩
    simp [spaced]

theorem wellFormed_of_scans (h : Scans text ts) : ∀ t ∈ ts, t.WellFormed := by
  induction h with
  | done h => simp
  | token h _ ih =>
    obtain ⟨gap, -, -, ht⟩ := exists_gap_of_next? h
    exact List.forall_mem_cons.2 ⟨ht, ih⟩

/-- **Nothing is lost.** Taking tokens from a text comes to an end with the tokens of the text and no others. The text
is their lexemes in order, with gaps of white space before the first, between any two, and after the last. No lexeme
is empty or begins with white space, only those of comments and strings hold any, and none holds a line end. -/
theorem tokenize_lossless (text : List Char) :
    (∀ ts, Scans text ts ↔ ts = tokenize text) ∧
    (∃ before gaps, gaps.length = (tokenize text).length ∧ text = before ++ spaced (tokenize text) gaps ∧
      ∀ gap ∈ before :: gaps, ∀ c ∈ gap, Text.isBlank c = true) ∧
    ∀ t ∈ tokenize text, t.WellFormed := by
  have hscans : Scans text (tokenize text) := scans_iff.2 rfl
  exact ⟨fun ts => scans_iff, exists_gaps_of_scans hscans, wellFormed_of_scans hscans⟩

-- a string, then a quotation mark that nothing closes
example : tokenize " \"a b\" \"\t// c ".toList =
    [⟨.string, "\"a b\"".toList⟩, ⟨.unknown, ['"']⟩, ⟨.comment, "// c ".toList⟩] := by cbv

end SimpleGrammar.Code
