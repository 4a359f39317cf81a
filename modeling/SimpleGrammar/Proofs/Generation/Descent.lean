/-
What the errors of a run are about.

A run comes to a nonterminal along those above it: from the start symbol down, each stands in the alternative that was
chosen for the one before. From the depth limit on, a nonterminal that has an alternative without nonterminals is
expanded to one of these, and nothing is below it. So whatever a run complains of can be reached, and a run is given
up only below nonterminals none of which could have ended it.

- `leadsTo_of_mem_eligible`: what an eligible alternative says of its nonterminals.
- `Descent`, `inherited_descent`: the nonterminals above a visit, and that every visit has them.
- `explained_of_generate`: what is the case when a run ends without a sentence.
-/
import Mathlib
import SimpleGrammar.Proofs.Generation.Visits
import SimpleGrammar.Proofs.Grammar.Definitions

namespace SimpleGrammar

/-! ## From nonterminal to nonterminal -/

namespace Grammar

/-- `m` is in an alternative of `n` -/
def LeadsTo (g : Grammar) (n m : Char) : Prop :=
  ∃ alts, g.alternatives? n = some alts ∧ ∃ r ∈ alts, .nonterminal m ∈ r

/-- from `n` one comes to `m` through alternatives -/
abbrev Reaches (g : Grammar) : Char → Char → Prop := Relation.ReflTransGen g.LeadsTo

/-- `n` has an alternative without nonterminals -/
def HasWord (g : Grammar) (n : Char) : Prop := ∃ alts, g.alternatives? n = some alts ∧ ∃ u, word u ∈ alts

end Grammar

namespace Sentence

variable {g : Grammar} {d : Draws} {maxDepth depth position i : Nat} {start n m : Char} {chain : Nat → Char}

theorem nonterminal_not_mem_word (u : List Char) : .nonterminal m ∉ word u := by
  simp [word]

/-- from `maxDepth` on only a nonterminal without words hands anything on -/
theorem leadsTo_of_mem_eligible {alts : Alternatives} {r : Rhs} (halts : g.alternatives? n = some alts)
    (hr : (r, i) ∈ eligible alts depth maxDepth) (hm : .nonterminal m ∈ r) :
    g.LeadsTo n m ∧ (maxDepth ≤ depth → ¬ g.HasWord n) := by
  obtain ⟨hat, hsteered⟩ := mem_eligible_iff.1 hr
  refine ⟨⟨alts, halts, r, List.mem_of_getElem? hat, hm⟩, ?_⟩
  rintro hdeep ⟨alts', halts', hword⟩
  cases halts.symm.trans halts'
  obtain ⟨u, rfl⟩ := hsteered hdeep hword
  exact nonterminal_not_mem_word u hm

theorem eq_of_ofChar_eq_nonterminal (h : Symbol.ofChar start = .nonterminal n) : start = n := by
  have hchar := congrArg Symbol.char h
  rwa [Symbol.char_ofChar] at hchar

/-! ## The nonterminals above a visit -/

/-- the nonterminals from the start symbol down to `depth` -/
structure Descent (g : Grammar) (maxDepth : Nat) (start : Char) (chain : Nat → Char) (depth : Nat) : Prop where
  first : chain 0 = start
  /-- each is in an alternative of the one before -/
  leads : ∀ i < depth, g.LeadsTo (chain i) (chain (i + 1))
  /-- those above `depth` and not above `maxDepth` have no alternative without nonterminals -/
  wordless : ∀ i < depth, maxDepth ≤ i → ¬ g.HasWord (chain i)

namespace Descent

theorem reaches (h : Descent g maxDepth start chain depth) : ∀ i ≤ depth, g.Reaches start (chain i) := by
  intro i
  induction i with
  | zero =>
    intro _
    rw [h.first]
  | succ i ih =>
    intro hi
    exact (ih (by omega)).tail (h.leads i (by omega))

/-- one level more -/
theorem extend (h : Descent g maxDepth start chain depth) (hm : g.LeadsTo (chain depth) m)
    (hwordless : maxDepth ≤ depth → ¬ g.HasWord (chain depth)) :
    Descent g maxDepth start (Function.update chain (depth + 1) m) (depth + 1) := by
  have hsame : ∀ i ≤ depth, Function.update chain (depth + 1) m i = chain i := by
    intro i hi
    have hne : i ≠ depth + 1 := by omega
    exact Function.update_of_ne hne m chain
  refine ⟨?_, fun i hi => ?_, fun i hi => ?_⟩
  · rw [hsame 0 (Nat.zero_le _), h.first]
  · rw [hsame i (by omega)]
    rcases Nat.lt_succ_iff_lt_or_eq.1 hi with hlt | rfl
    · rw [hsame (i + 1) hlt]
      exact h.leads i hlt
    · rw [Function.update_self]
      exact hm
  · rw [hsame i (by omega)]
    rcases Nat.lt_succ_iff_lt_or_eq.1 hi with hlt | rfl
    · exact h.wordless i hlt
    · exact hwordless

end Descent

/-- **Every visit has a descent**, because expansion hands it on. -/
theorem inherited_descent (g : Grammar) (maxDepth : Nat) (start : Char) :
    Inherited g maxDepth fun depth n => ∃ chain, Descent g maxDepth start chain depth ∧ chain depth = n := by
  rintro depth n alts r i ⟨chain, hchain, rfl⟩ halts hr m hm
  obtain ⟨hleads, hwordless⟩ := leadsTo_of_mem_eligible halts hr hm
  exact ⟨_, hchain.extend hleads hwordless, Function.update_self _ _ _⟩

/-! ## Errors -/

/-- **Errors are true.** A run that ends for want of a definition has come to a nonterminal that can be reached from
the start symbol and is not defined; one that ends for want of alternatives has come to a nonterminal that can be
reached and has none. One that is given up has come to a defined nonterminal on a chain from the start symbol down to
one level below twice the depth limit, on which each is in an alternative of the one before, and none of those from
the depth limit on that stand above it has an alternative without nonterminals. -/
theorem explained_of_generate (g : Grammar) (d : Draws) (maxDepth : Nat) (hdepth : maxDepth < 2 ^ 63) (start : Char)
    (position : Nat) (n : Char) :
    ((generate g d maxDepth start position).result = .error (.undefinedNonterminal n) →
      g.Reaches start n ∧ n ∉ g.nonterminals) ∧
    ((generate g d maxDepth start position).result = .error (.noRules n) →
      g.Reaches start n ∧ g.alternatives? n = some []) ∧
    ((generate g d maxDepth start position).result = .error (.depthExceeded n) →
      n ∈ g.nonterminals ∧ ∃ chain : Nat → Char, chain 0 = start ∧ chain (2 * maxDepth + 1) = n ∧
        (∀ i ≤ 2 * maxDepth, g.LeadsTo (chain i) (chain (i + 1))) ∧
        ∀ i, maxDepth ≤ i → i ≤ 2 * maxDepth → ¬ g.HasWord (chain i)) := by
  have hstart : ∀ m, Symbol.ofChar start = .nonterminal m →
      ∃ chain, Descent g maxDepth start chain 0 ∧ chain 0 = m := by
    intro m hm
    refine ⟨fun _ => start, ⟨rfl, by simp, by simp⟩, eq_of_ofChar_eq_nonterminal hm⟩
  have hrun : (generate g d maxDepth start position).Faithful g _ _ :=
    faithful_generate (inherited_descent g maxDepth start) hstart
  -- an error is about a visit, and the visit has a descent
  have hvisit : ∀ e, (generate g d maxDepth start position).result = .error e →
      ∃ v chain, Descent g maxDepth start chain v.depth ∧ chain v.depth = v.nonterminal ∧
        Explains g (2 * maxDepth + 1) v e := by
    intro e he
    obtain ⟨v, hv, hexplains⟩ := hrun.explained e (Run.result_eq_error_iff.1 he)
    obtain ⟨chain, hchain, hlast⟩ := hrun.visited v hv
    rw [depthLimit_of_lt hdepth] at hexplains
    exact ⟨v, chain, hchain, hlast, hexplains⟩
  refine ⟨fun h => ?_, fun h => ?_, fun h => ?_⟩
  · obtain ⟨v, chain, hchain, hlast, rfl, hundefined⟩ := hvisit _ h
    refine ⟨hlast ▸ hchain.reaches _ (Nat.le_refl _), fun hmem => ?_⟩
    rw [Grammar.mem_nonterminals_iff, hundefined] at hmem
    cases hmem
  · obtain ⟨v, chain, hchain, hlast, rfl, hnone⟩ := hvisit _ h
    exact ⟨hlast ▸ hchain.reaches _ (Nat.le_refl _), hnone⟩
  · obtain ⟨v, chain, hchain, hlast, rfl, hdefined, hdeep⟩ := hvisit _ h
    rw [hdeep] at hchain hlast
    refine ⟨Grammar.mem_nonterminals_iff.2 hdefined, chain, hchain.first, hlast, fun i hi => ?_, fun i hle hi => ?_⟩
    · exact hchain.leads i (Nat.lt_succ_of_le hi)
    · exact hchain.wordless i (Nat.lt_succ_of_le hi) hle

/-- `S -> aX`, `L -> aL` and `E` without alternatives -/
def faulty : Grammar := (Grammar.ofRules [('S', ["aX"]), ('L', ["aL"])]).declare 'E'

/-- a run for each kind of error; `L` can only be expanded to itself again -/
theorem explained_of_generate_faulty :
    3 < 2 ^ 63 ∧
      (generate faulty (.ofList []) 3 'S' 0).result = .error (.undefinedNonterminal 'X') ∧ faulty.Reaches 'S' 'X' ∧
      (generate faulty (.ofList []) 3 'E' 0).result = .error (.noRules 'E') ∧ faulty.Reaches 'E' 'E' ∧
      (generate faulty (.ofList []) 3 'L' 0).result = .error (.depthExceeded 'L') ∧
      ∃ chain : Nat → Char, chain 0 = 'L' ∧ chain 7 = 'L' ∧ ¬ faulty.HasWord (chain 3) := by
  have hdepth : 3 < 2 ^ 63 := by decide
  have hundefined : (generate faulty (.ofList []) 3 'S' 0).result = .error (.undefinedNonterminal 'X') := by cbv
  have hnone : (generate faulty (.ofList []) 3 'E' 0).result = .error (.noRules 'E') := by cbv
  have hdeep : (generate faulty (.ofList []) 3 'L' 0).result = .error (.depthExceeded 'L') := by cbv
  obtain ⟨hX, -, -⟩ := explained_of_generate faulty (.ofList []) 3 hdepth 'S' 0 'X'
  obtain ⟨-, hE, -⟩ := explained_of_generate faulty (.ofList []) 3 hdepth 'E' 0 'E'
  obtain ⟨-, -, hL⟩ := explained_of_generate faulty (.ofList []) 3 hdepth 'L' 0 'L'
  obtain ⟨-, chain, hfirst, hlast, -, hwordless⟩ := hL hdeep
  exact ⟨hdepth, hundefined, (hX hundefined).1, hnone, (hE hnone).1, hdeep, chain, hfirst, hlast,
    hwordless 3 (by decide) (by decide)⟩

end Sentence

end SimpleGrammar
