/-
What can be read from a rule line.

- `symbolsOf_eq_ok_iff`, `alternativeOf_eq_ok_iff`: an alternative is its symbols, without arrows and with ε only alone.
- `arrow_not_mem_of_alternativesOf`, `readable_of_alternativesOf`: alternatives that were read hold no second arrow, and
  their symbols are as text can state them.
- `read_eq_ok_iff`, `read_readable`: the same of whole lines.
-/
import SimpleGrammar.Proofs.Outcome
import SimpleGrammar.Proofs.Source.Tokens
import SimpleGrammar.Proofs.Text.Pieces
import SimpleGrammar.Source.RuleLine

namespace SimpleGrammar

/-- an alternative as text can state it: each symbol has the role of its character, which is a symbol by itself -/
def Rhs.Readable (r : Rhs) : Prop := ∀ x ∈ r, x = .ofChar x.char ∧ Source.Plain x.char

namespace Source

variable {ts segment body : List Token} {r : Rhs} {alts : Alternatives}

/-! ## Alternatives -/

/-- the symbols among tokens -/
def symbolsIn (ts : List Token) : Rhs :=
  ts.filterMap fun
    | .symbol c => some (.ofChar c)
    | _ => none

theorem mem_symbolsIn_iff {x : Symbol} : x ∈ symbolsIn ts ↔ ∃ c, Token.symbol c ∈ ts ∧ Symbol.ofChar c = x := by
  rw [symbolsIn, List.mem_filterMap]
  constructor
  · rintro ⟨t, ht, hx⟩
    cases t with
    | symbol c => exact ⟨c, ht, Option.some.inj hx⟩
    | _ => cases hx
  · rintro ⟨c, hc, hx⟩
    exact ⟨_, hc, congrArg some hx⟩

theorem symbolsIn_map (cs : List Char) : symbolsIn (cs.map .symbol) = cs.map .ofChar := by
  rw [symbolsIn, List.filterMap_map, ← List.filterMap_eq_map]
  rfl

theorem symbolsIn_flatten (tss : List (List Token)) : symbolsIn tss.flatten = (tss.map symbolsIn).flatten :=
  List.filterMap_flatten

theorem symbolsIn_filter_bar (ts : List Token) : symbolsIn (ts.filter (· ≠ .bar)) = symbolsIn ts := by
  rw [symbolsIn, List.filterMap_filter]
  congr 1
  funext t
  cases t <;> rfl

theorem symbolsOf_eq_ok_iff : symbolsOf ts = .ok r ↔ .arrow ∉ ts ∧ .bar ∉ ts ∧ symbolsIn ts = r := by
  fun_induction symbolsOf ts generalizing r with
  | case1 => simp [symbolsIn]
  | case2 rest => simp
  | case3 rest => simp
  | case4 rest ih => simp [ih, symbolsIn]
  | case5 c rest ih => simp [Outcome.map_eq_ok_iff, ih, symbolsIn, and_assoc]

/-- **Alternatives read.** ε is on its own, there is no arrow and no bar, and the symbols are those of the tokens. -/
theorem alternativeOf_eq_ok_iff : alternativeOf segment = .ok r ↔
    (1 < segment.length → .epsilon ∉ segment) ∧ .arrow ∉ segment ∧ .bar ∉ segment ∧ symbolsIn segment = r := by
  rw [← symbolsOf_eq_ok_iff, alternativeOf]
  by_cases h : 1 < segment.length ∧ Token.epsilon ∈ segment
  · rw [if_pos h]
    exact iff_of_false (fun h => nomatch h) fun hs => hs.1 h.1 h.2
  · rw [if_neg h]
    exact (and_iff_right fun hlen hmem => h ⟨hlen, hmem⟩).symm

theorem alternativesOf_of_ne_nil (h : body ≠ []) :
    alternativesOf body = .ok alts ↔ (Text.pieces .bar body).map alternativeOf = alts.map .ok := by
  rw [alternativesOf, if_neg h, Outcome.mapM_eq_ok_iff]

/-- the symbols of all alternatives are those of the tokens, in order -/
theorem flatten_of_alternativesOf (h : alternativesOf body = .ok alts) : alts.flatten = symbolsIn body := by
  by_cases hbody : body = []
  · rw [alternativesOf, if_pos hbody] at h
    cases h
    rw [hbody]
    rfl
  · have hread : ∀ p ∈ Text.pieces .bar body, ∀ r, alternativeOf p = .ok r ↔
        ((1 < p.length → .epsilon ∉ p) ∧ .arrow ∉ p ∧ .bar ∉ p) ∧ r = symbolsIn p := by
      intro p _ r
      rw [alternativeOf_eq_ok_iff, eq_comm (a := r), and_assoc, and_assoc]
    obtain ⟨-, rfl⟩ := (Outcome.map_eq_map_ok_iff hread).1 ((alternativesOf_of_ne_nil hbody).1 h)
    rw [← symbolsIn_flatten, Text.flatten_pieces, symbolsIn_filter_bar]

/-- every alternative is read from a piece of the body -/
theorem exists_piece_of_alternativesOf (h : alternativesOf body = .ok alts) (hr : r ∈ alts) :
    ∃ p ∈ Text.pieces .bar body, alternativeOf p = .ok r := by
  by_cases hbody : body = []
  · rw [alternativesOf, if_pos hbody] at h
    cases h
    cases hr
  · have hmem : Except.ok r ∈ (Text.pieces .bar body).map alternativeOf := by
      rw [(alternativesOf_of_ne_nil hbody).1 h]
      exact List.mem_map_of_mem hr
    exact List.mem_map.1 hmem

/-- **One arrow.** What is read after the arrow holds no other. -/
theorem arrow_not_mem_of_alternativesOf (h : alternativesOf body = .ok alts) : .arrow ∉ body := by
  intro harrow
  obtain ⟨p, hp, hmem⟩ := Text.exists_mem_pieces_iff.2 ⟨harrow, (Token.noConfusion : Token.arrow ≠ .bar)⟩
  have hread : alternativeOf p ∈ alts.map Except.ok := by
    rw [← (alternativesOf_of_ne_nil (List.ne_nil_of_mem harrow)).1 h]
    exact List.mem_map_of_mem hp
  obtain ⟨r, -, hr⟩ := List.mem_map.1 hread
  exact (alternativeOf_eq_ok_iff.1 hr.symm).2.1 hmem

theorem readable_of_alternativesOf (h : alternativesOf body = .ok alts) (hplain : ∀ c, .symbol c ∈ body → Plain c) :
    ∀ r ∈ alts, r.Readable := by
  intro r hr x hx
  obtain ⟨p, hp, hread⟩ := exists_piece_of_alternativesOf h hr
  obtain ⟨-, -, -, rfl⟩ := alternativeOf_eq_ok_iff.1 hread
  obtain ⟨c, hc, rfl⟩ := mem_symbolsIn_iff.1 hx
  have hbody := (Text.exists_mem_pieces_iff.1 ⟨p, hp, hc⟩).1
  rw [Symbol.char_ofChar]
  exact ⟨rfl, hplain c hbody⟩

/-! ## Lines -/

theorem ofTokens_eq_ok_iff {rule : RuleLine} : RuleLine.ofTokens ts = .ok rule ↔
    ∃ body, ts = .symbol rule.nonterminal :: .arrow :: body ∧ Text.isUppercase rule.nonterminal = true ∧
      alternativesOf body = .ok rule.alternatives := by
  obtain ⟨m, alts⟩ := rule
  constructor
  · intro h
    unfold RuleLine.ofTokens at h
    split at h
    · cases h
    · next n rest =>
      split at h
      · next hn =>
        split at h
        · next body =>
          obtain ⟨read, hbody, heq⟩ := Outcome.map_eq_ok_iff.1 h
          cases heq
          exact ⟨body, rfl, hn, hbody⟩
        · cases h
      · cases h
    · cases h
  · rintro ⟨body, rfl, hm, hbody⟩
    rw [RuleLine.ofTokens, if_pos hm]
    exact Outcome.map_eq_ok_iff.2 ⟨alts, hbody, rfl⟩

theorem read_eq_ok_iff {line : List Char} {rule : RuleLine} : RuleLine.read line = .ok rule ↔
    ∃ body, tokens line = .symbol rule.nonterminal :: .arrow :: body ∧ Text.isUppercase rule.nonterminal = true ∧
      alternativesOf body = .ok rule.alternatives := ofTokens_eq_ok_iff

/-- **Lines read.** The nonterminal is uppercase, and the symbols are as text can state them. -/
theorem read_readable {line : List Char} {rule : RuleLine} (h : RuleLine.read line = .ok rule) :
    Text.isUppercase rule.nonterminal = true ∧ ∀ r ∈ rule.alternatives, r.Readable := by
  obtain ⟨body, hts, hn, hbody⟩ := read_eq_ok_iff.1 h
  refine ⟨hn, readable_of_alternativesOf hbody fun c hc => ?_⟩
  have hline : .symbol c ∈ tokens line := by
    rw [hts]
    exact List.mem_cons_of_mem _ (List.mem_cons_of_mem _ hc)
  exact plain_of_symbol_mem hline

end Source

end SimpleGrammar
