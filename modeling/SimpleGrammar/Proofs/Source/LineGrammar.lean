/-
The grammar of rule lines.

A line is read token by token in one way. The tokens of a rule line state a rule when they are an uppercase symbol, an
arrow, and nothing more or segments with bars between them; each segment is empty, ε by itself, or symbols. Of tokens
that state no rule it is said what is reported: the first of the three parts that is missing or wrong decides.

- `Tokenized`, `tokenized_iff`: how a line is read, and that the tokens are what is read.
- `Segment`, `Stated`, `Misstated`: the grammar, and the faults.
- `alternativeOf_eq_ok_iff_segment`, `alternativeOf_eq_error_iff`: one segment.
- `ofTokens_eq_ok_iff_stated`, `ofTokens_eq_error_iff`: all tokens of a rule line.
- `read_stated_or_misstated`: the reading of rule lines, and the two faults that no text has.
-/
import Mathlib.Data.List.Forall2
import SimpleGrammar.Proofs.Source.Faults

namespace SimpleGrammar

namespace Source

/-! ## Reading a line -/

/-- how a line is read from left to right: a dash directly followed by `>` is an arrow, white space is nothing, and
every other character is a token by itself -/
inductive Tokenized : List Char → List Token → Prop
  | nil : Tokenized [] []
  | arrow {rest : List Char} {ts : List Token} (h : Tokenized rest ts) : Tokenized ('-' :: '>' :: rest) (.arrow :: ts)
  | blank {c : Char} {rest : List Char} {ts : List Token} (hc : Text.isBlank c = true) (h : Tokenized rest ts) :
    Tokenized (c :: rest) ts
  | bar {rest : List Char} {ts : List Token} (h : Tokenized rest ts) : Tokenized ('|' :: rest) (.bar :: ts)
  | epsilon {rest : List Char} {ts : List Token} (h : Tokenized rest ts) : Tokenized ('ε' :: rest) (.epsilon :: ts)
  | symbol {c : Char} {rest : List Char} {ts : List Token} (hc : Plain c) (hdash : ¬ (c = '-' ∧ rest.head? = some '>'))
    (h : Tokenized rest ts) : Tokenized (c :: rest) (.symbol c :: ts)

theorem tokenized_tokens (line : List Char) : Tokenized line (tokens line) := by
  fun_induction tokens line with
  | case1 => exact .nil
  | case2 rest ih => exact .arrow ih
  | case3 c rest hne hc ih => exact .blank hc ih
  | case4 c rest hne hc ih =>
    rw [Token.ofChar]
    split
    · next hbar =>
      rw [hbar]
      exact .bar ih
    · next hbar =>
      split
      · next heps =>
        rw [heps]
        exact .epsilon ih
      · next heps =>
        refine .symbol ⟨eq_false_of_ne_true hc, hbar, heps⟩ ?_ ih
        rintro ⟨rfl, hhead⟩
        obtain ⟨rest', rfl⟩ := List.head?_eq_some_iff.1 hhead
        exact hne rest' rfl rfl

/-- **One reading.** A line is read in one way, as its tokens. -/
theorem tokenized_iff {line : List Char} {ts : List Token} : Tokenized line ts ↔ ts = tokens line := by
  constructor
  · intro h
    induction h with
    | nil => rfl
    | arrow h ih => rw [tokens_arrow, ih]
    | blank hc h ih => rw [tokens_cons_blank hc, ih]
    | bar h ih =>
      rw [tokens_cons (by simp), if_neg (by decide), ih]
      rfl
    | epsilon h ih =>
      rw [tokens_cons (by simp), if_neg (by decide), ih]
      rfl
    | symbol hc hdash h ih => rw [tokens_cons hdash, if_neg (by simp [hc.1]), ofChar_of_plain hc, ih]
  · rintro rfl
    exact tokenized_tokens line

/-! ## Segments -/

/-- a segment of a rule line with the alternative that it states: nothing or ε by itself state the empty one, and
symbols state themselves -/
inductive Segment : List Token → Rhs → Prop
  | empty : Segment [] []
  | epsilon : Segment [.epsilon] []
  | symbols {cs : List Char} (h : cs ≠ []) : Segment (cs.map .symbol) (cs.map .ofChar)

/-- what is reported of a segment that states nothing -/
def segmentFault (s : List Token) : LoadError :=
  if .epsilon ∈ s ∧ 1 < s.length then .embeddedEpsilon else .unexpectedArrow

variable {s body ts : List Token} {r : Rhs} {e : LoadError} {segments : List (List Token)} {alts : Alternatives}
  {rule : RuleLine}

theorem Segment.bar_not_mem (h : Segment s r) : .bar ∉ s := by
  cases h <;> simp

theorem exists_eq_map_symbol (harrow : .arrow ∉ s) (hbar : .bar ∉ s) (heps : .epsilon ∉ s) :
    ∃ cs : List Char, s = cs.map .symbol := by
  induction s with
  | nil => exact ⟨[], rfl⟩
  | cons t ts ih =>
    simp only [List.mem_cons, not_or] at harrow hbar heps
    obtain ⟨cs, rfl⟩ := ih harrow.2 hbar.2 heps.2
    cases t with
    | symbol c => exact ⟨c :: cs, rfl⟩
    | arrow => exact absurd rfl harrow.1
    | bar => exact absurd rfl hbar.1
    | epsilon => exact absurd rfl heps.1

/-- **Segments read.** A segment is read as the alternative that it states. -/
theorem alternativeOf_eq_ok_iff_segment : alternativeOf s = .ok r ↔ Segment s r := by
  rw [alternativeOf_eq_ok_iff]
  constructor
  · rintro ⟨hlen, harrow, hbar, rfl⟩
    by_cases heps : .epsilon ∈ s
    · -- ε leaves no room for another token
      obtain ⟨before, after, rfl⟩ := List.append_of_mem heps
      have hshort : before.length + (after.length + 1) ≤ 1 := by simpa using hlen
      obtain rfl : before = [] := List.eq_nil_of_length_eq_zero (by omega)
      obtain rfl : after = [] := List.eq_nil_of_length_eq_zero (by omega)
      exact .epsilon
    · obtain ⟨cs, rfl⟩ := exists_eq_map_symbol harrow hbar heps
      rw [symbolsIn_map]
      by_cases hcs : cs = []
      · rw [hcs]
        exact .empty
      · exact .symbols hcs
  · intro h
    cases h with
    | empty => simp [symbolsIn]
    | epsilon => simp [symbolsIn]
    | symbols hcs => simp [symbolsIn_map]

theorem eq_unexpectedArrow_of_symbolsOf (hbar : .bar ∉ s) (h : symbolsOf s = .error e) : e = .unexpectedArrow := by
  fun_induction symbolsOf s with
  | case1 => cases h
  | case2 rest =>
    cases h
    rfl
  | case3 rest => exact absurd List.mem_cons_self hbar
  | case4 rest ih => exact ih (mt (List.mem_cons_of_mem _) hbar) h
  | case5 c rest ih => exact ih (mt (List.mem_cons_of_mem _) hbar) (Outcome.map_eq_error_iff.1 h)

theorem eq_segmentFault_of_alternativeOf (hbar : .bar ∉ s) (h : alternativeOf s = .error e) : e = segmentFault s := by
  rw [alternativeOf] at h
  rw [segmentFault]
  split at h
  · next hmixed =>
    cases h
    exact (if_pos hmixed.symm).symm
  · next hmixed =>
    rw [if_neg (mt And.symm hmixed)]
    exact eq_unexpectedArrow_of_symbolsOf hbar h

/-- **Segments refused.** A segment that states nothing is reported for its ε, if it has company, or else for an
arrow. -/
theorem alternativeOf_eq_error_iff (hbar : .bar ∉ s) :
    alternativeOf s = .error e ↔ (∀ r, ¬ Segment s r) ∧ e = segmentFault s := by
  simp only [← alternativeOf_eq_ok_iff_segment]
  constructor
  · intro h
    refine ⟨fun r hr => ?_, eq_segmentFault_of_alternativeOf hbar h⟩
    rw [h] at hr
    cases hr
  · rintro ⟨hno, rfl⟩
    cases h : alternativeOf s with
    | ok r => exact absurd h (hno r)
    | error e => rw [eq_segmentFault_of_alternativeOf hbar h]

/-! ## What follows the arrow -/

theorem map_alternativeOf_eq_iff : segments.map alternativeOf = alts.map .ok ↔ List.Forall₂ Segment segments alts := by
  rw [← List.forall₂_eq_eq_eq, List.forall₂_map_left_iff, List.forall₂_map_right_iff]
  simp only [alternativeOf_eq_ok_iff_segment]

/-- segments that are put together are the pieces again -/
theorem pieces_intercalate_of_ne_nil (hbody : [.bar].intercalate segments ≠ []) (h : ∀ s ∈ segments, Token.bar ∉ s) :
    Text.pieces .bar ([.bar].intercalate segments) = segments := by
  refine Text.pieces_intercalate ?_ h
  rintro rfl
  exact hbody rfl

theorem alternativesOf_eq_ok_iff : alternativesOf body = .ok alts ↔
    body = [] ∧ alts = [] ∨
      ∃ segments, body = [.bar].intercalate segments ∧ body ≠ [] ∧ List.Forall₂ Segment segments alts := by
  by_cases hbody : body = []
  · have hnone : ¬ ∃ segments, body = [.bar].intercalate segments ∧ body ≠ [] ∧ List.Forall₂ Segment segments alts := by
      rintro ⟨-, -, hne, -⟩
      exact hne hbody
    rw [alternativesOf, if_pos hbody, or_iff_left hnone, and_iff_right hbody, Except.ok.injEq]
    exact eq_comm
  · rw [alternativesOf_of_ne_nil hbody, map_alternativeOf_eq_iff, or_iff_right fun h => hbody h.1]
    constructor
    · intro h
      exact ⟨_, (Text.intercalate_pieces .bar body).symm, hbody, h⟩
    · rintro ⟨segments, rfl, -, h⟩
      have hbar := ((List.forall₂_and_left _ _).1 (h.imp fun s r hs => ⟨hs.bar_not_mem, hs⟩)).1
      rwa [pieces_intercalate_of_ne_nil hbody hbar]

theorem alternativesOf_eq_error_iff : alternativesOf body = .error e ↔
    ∃ before s after, body = [.bar].intercalate (before ++ s :: after) ∧ (∀ p ∈ before, ∃ r, Segment p r) ∧
      (∀ r, ¬ Segment s r) ∧ (∀ p ∈ s :: after, .bar ∉ p) ∧ e = segmentFault s := by
  rw [alternativesOf]
  constructor
  · intro h
    split at h
    · cases h
    · obtain ⟨before, s, after, hpieces, hbefore, hs⟩ := Outcome.mapM_eq_error_iff.1 h
      have hbar : ∀ p ∈ s :: after, .bar ∉ p := by
        intro p hp
        have hmem : p ∈ Text.pieces .bar body := hpieces ▸ List.mem_append_right _ hp
        exact Text.not_mem_of_mem_pieces hmem
      obtain ⟨hno, hcause⟩ := (alternativeOf_eq_error_iff (hbar s List.mem_cons_self)).1 hs
      refine ⟨before, s, after, ?_, ?_, hno, hbar, hcause⟩
      · rw [← hpieces, Text.intercalate_pieces]
      · simpa only [alternativeOf_eq_ok_iff_segment] using hbefore
  · rintro ⟨before, s, after, rfl, hbefore, hno, hbar, rfl⟩
    have hbody : [.bar].intercalate (before ++ s :: after) ≠ [] := by
      intro hnil
      have hs : s <:+: [.bar].intercalate (before ++ s :: after) :=
        Text.infix_intercalate (List.mem_append_right _ List.mem_cons_self)
      rw [hnil, List.infix_nil] at hs
      exact hno [] (hs ▸ .empty)
    have hbars : ∀ p ∈ before ++ s :: after, Token.bar ∉ p := by
      intro p hp
      rcases List.mem_append.1 hp with hp | hp
      · obtain ⟨r, hr⟩ := hbefore p hp
        exact hr.bar_not_mem
      · exact hbar p hp
    rw [if_neg hbody, pieces_intercalate_of_ne_nil hbody hbars, Outcome.mapM_eq_error_iff]
    refine ⟨before, s, after, rfl, ?_, ?_⟩
    · simpa only [alternativeOf_eq_ok_iff_segment] using hbefore
    · exact (alternativeOf_eq_error_iff (hbar s List.mem_cons_self)).2 ⟨hno, rfl⟩

/-! ## Rule lines -/

/-- the tokens of a rule line with the rule that they state: an uppercase symbol, an arrow, and after it nothing or
segments with bars between them, one for each alternative -/
inductive Stated : List Token → RuleLine → Prop
  | declaration {n : Char} (hn : Text.isUppercase n = true) : Stated [.symbol n, .arrow] ⟨n, []⟩
  | alternatives {n : Char} {segments : List (List Token)} {alts : Alternatives} (hn : Text.isUppercase n = true)
    (hbody : [.bar].intercalate segments ≠ []) (h : List.Forall₂ Segment segments alts) :
    Stated (.symbol n :: .arrow :: [.bar].intercalate segments) ⟨n, alts⟩

/-- the tokens of a rule line that states no rule, with what is reported of them: there is no uppercase symbol in
front, or no arrow after it, or a segment, the first of this kind, states nothing -/
inductive Misstated : List Token → LoadError → Prop
  | missingNonterminal {ts : List Token} (h : ∀ n, ts.head? = some (.symbol n) → Text.isUppercase n = false) :
    Misstated ts .missingNonterminal
  | missingArrow {n : Char} {rest : List Token} (hn : Text.isUppercase n = true) (h : rest.head? ≠ some .arrow) :
    Misstated (.symbol n :: rest) .missingArrow
  | segment {n : Char} {before after : List (List Token)} {s : List Token} (hn : Text.isUppercase n = true)
    (hbefore : ∀ p ∈ before, ∃ r, Segment p r) (hs : ∀ r, ¬ Segment s r) (hbar : ∀ p ∈ s :: after, .bar ∉ p) :
    Misstated (.symbol n :: .arrow :: [.bar].intercalate (before ++ s :: after)) (segmentFault s)

/-- **Rule lines read.** Tokens are read as the rule that they state. -/
theorem ofTokens_eq_ok_iff_stated : RuleLine.ofTokens ts = .ok rule ↔ Stated ts rule := by
  rw [ofTokens_eq_ok_iff]
  constructor
  · rintro ⟨body, rfl, hn, hbody⟩
    obtain ⟨n, alts⟩ := rule
    rcases alternativesOf_eq_ok_iff.1 hbody with ⟨rfl, rfl⟩ | ⟨segments, rfl, hne, h⟩
    · exact .declaration hn
    · exact .alternatives hn hne h
  · intro h
    cases h with
    | declaration hn => exact ⟨[], rfl, hn, rfl⟩
    | alternatives hn hbody h => exact ⟨_, rfl, hn, alternativesOf_eq_ok_iff.2 (.inr ⟨_, rfl, hbody, h⟩)⟩

/-- **Rule lines refused.** Tokens that state no rule are reported for the first thing that is missing or wrong. -/
theorem ofTokens_eq_error_iff (hts : ts ≠ []) : RuleLine.ofTokens ts = .error e ↔ Misstated ts e := by
  constructor
  · intro h
    unfold RuleLine.ofTokens at h
    split at h
    · exact absurd rfl hts
    · next n rest =>
      split at h
      · next hn =>
        split at h
        · next body =>
          obtain ⟨before, s, after, rfl, hbefore, hs, hbar, rfl⟩ :=
            alternativesOf_eq_error_iff.1 (Outcome.map_eq_error_iff.1 h)
          exact .segment hn hbefore hs hbar
        · next hrest =>
          cases h
          refine .missingArrow hn fun hhead => ?_
          obtain ⟨body, rfl⟩ := List.head?_eq_some_iff.1 hhead
          exact hrest body rfl
      · next hn =>
        cases h
        refine .missingNonterminal fun m hm => ?_
        cases hm
        exact eq_false_of_ne_true hn
    · next t rest hsymbol =>
      cases h
      refine .missingNonterminal fun m hm => ?_
      cases hm
      exact absurd rfl (hsymbol m)
  · intro h
    cases h with
    | missingNonterminal h =>
      unfold RuleLine.ofTokens
      split
      · exact absurd rfl hts
      · next n rest => rw [if_neg (by simp [h n rfl])]
      · rfl
    | missingArrow hn h =>
      rw [RuleLine.ofTokens, if_pos hn]
      rintro body rfl
      exact h rfl
    | segment hn hbefore hs hbar =>
      rw [RuleLine.ofTokens, if_pos hn]
      exact Outcome.map_eq_error_iff.2 (alternativesOf_eq_error_iff.2 ⟨_, _, _, rfl, hbefore, hs, hbar, rfl⟩)

/-- a bar in a segment, or no token at all, is never reported -/
theorem Misstated.cause_ne (h : Misstated ts e) : e ≠ .unsplitBar ∧ e ≠ .noTokens := by
  cases h with
  | missingNonterminal h => simp
  | missingArrow hn h => simp
  | segment hn hbefore hs hbar =>
    rw [segmentFault]
    split <;> simp

/-- a line that is no comment and not blank has a token -/
theorem tokens_ne_nil {line : List Char} (h : isRuleLine line = true) : tokens line ≠ [] := by
  obtain ⟨c, hc, -⟩ := isRuleLine_iff.1 h
  intro hnil
  have hblank := tokens_eq_nil_iff.1 hnil c (List.mem_of_find?_eq_some hc)
  simpa [hblank] using List.find?_some hc

theorem read_eq_error_iff {line : List Char} (h : isRuleLine line = true) :
    RuleLine.read line = .error e ↔ Misstated (tokens line) e := ofTokens_eq_error_iff (tokens_ne_nil h)

/-! ## Texts and files -/

theorem cause_ne_of_loadLines {file : String} {lines : List SourceLine} {es : List (Located LoadError)}
    (h : loadLines file lines = .error es) : ∀ e ∈ es, e.cause ≠ .unsplitBar ∧ e.cause ≠ .noTokens := by
  intro e he
  obtain ⟨fault, hfault⟩ | ⟨text, hrule, hread⟩ | ⟨n, hn⟩ := cause_of_loadLines h he
  · simp [hfault]
  · exact ((read_eq_error_iff hrule).1 hread).cause_ne
  · simp [hn]

/-- **The reading of rule lines.** A line that is not blank and no comment is read as tokens in one way. It is
accepted exactly when the tokens state a rule, and then as this rule; and it is refused exactly when they do not, with
the fault that is reported first. Neither a bar left in a segment nor a line without tokens is reported of any text or
file. -/
theorem read_stated_or_misstated :
    (∀ line, isRuleLine line = true → ∃ ts, (∀ ts', Tokenized line ts' ↔ ts' = ts) ∧
      (∀ rule, RuleLine.read line = .ok rule ↔ Stated ts rule) ∧ ∀ e, RuleLine.read line = .error e ↔ Misstated ts e) ∧
    (∀ origin text es, loadText origin text = .error es → ∀ e ∈ es, e.cause ≠ .unsplitBar ∧ e.cause ≠ .noTokens) ∧
    ∀ name content es, loadFile name content = .error es → ∀ e ∈ es, e.cause ≠ .unsplitBar ∧ e.cause ≠ .noTokens := by
  refine ⟨?_, ?_, ?_⟩
  · intro line hline
    exact ⟨tokens line, fun ts => tokenized_iff, fun rule => ofTokens_eq_ok_iff_stated,
      fun e => read_eq_error_iff hline⟩
  · intro origin text es h
    exact cause_ne_of_loadLines h
  · intro name content es h
    cases content with
    | error fault =>
      cases h
      simp [FileFault.locate]
    | ok bytes => exact cause_ne_of_loadLines h

/-- Dashes and `>` that do not meet, and segments for the empty alternative; an arrow after an ε, which goes before
it. -/
theorem read_stated_dashes :
    RuleLine.read "S -> a-|>B||ε".toList =
      .ok ⟨'S', [[.terminal 'a', .terminal '-'], [.terminal '>', .nonterminal 'B'], [], []]⟩ ∧
    RuleLine.read "S -> a | ε-> | ->".toList = .error .embeddedEpsilon ∧
    ∃ es, loadText "sums" "S -> |\nS -> a | ε-> | ->".toList = .error es ∧
      ∀ e ∈ es, e.cause ≠ .unsplitBar ∧ e.cause ≠ .noTokens := by
  obtain ⟨hread, htext, -⟩ := read_stated_or_misstated
  refine ⟨?_, ?_, ?_⟩
  · obtain ⟨ts, hts, hok, -⟩ := hread "S -> a-|>B||ε".toList (by decide)
    obtain rfl := (hts _).1 (tokenized_tokens _)
    have hdash : Segment [.symbol 'a', .symbol '-'] [.terminal 'a', .terminal '-'] :=
      .symbols (List.cons_ne_nil 'a' ['-'])
    have hangle : Segment [.symbol '>', .symbol 'B'] [.terminal '>', .nonterminal 'B'] :=
      .symbols (List.cons_ne_nil '>' ['B'])
    refine (hok _).2 (.alternatives (by decide) ?_ (.cons hdash (.cons hangle (.cons .empty (.cons .epsilon .nil)))))
    decide
  · obtain ⟨ts, hts, -, herror⟩ := hread "S -> a | ε-> | ->".toList (by decide)
    obtain rfl := (hts _).1 (tokenized_tokens _)
    have hbefore : ∀ p ∈ [[Token.symbol 'a']], ∃ r, Segment p r := by
      intro p hp
      rw [List.mem_singleton.1 hp]
      exact ⟨[.terminal 'a'], .symbols (List.cons_ne_nil 'a' [])⟩
    have hs : ∀ r, ¬ Segment [.epsilon, .arrow] r := by
      intro r hr
      cases alternativeOf_eq_ok_iff_segment.2 hr
    have hbar : ∀ p ∈ [[Token.epsilon, .arrow], [.arrow]], .bar ∉ p := by decide
    have hfault : Misstated (tokens "S -> a | ε-> | ->".toList) (segmentFault [.epsilon, .arrow]) :=
      .segment (by decide) hbefore hs hbar
    exact (herror _).2 hfault
  · obtain ⟨es, hes⟩ : ∃ es, loadText "sums" "S -> |\nS -> a | ε-> | ->".toList = .error es :=
      Outcome.isOk_eq_false_iff.1 (by decide)
    exact ⟨es, hes, htext _ _ _ hes⟩

end Source

end SimpleGrammar
