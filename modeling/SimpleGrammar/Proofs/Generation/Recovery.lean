/-
The recognizer recovers the choices of the generator.

Where every alternative begins with a terminal and no two alternatives of a nonterminal begin alike, every rule is a
leading one. So the steps of a generated tree, which are a leftmost derivation of its sentence, are the ones the
recognizer finds from the characters alone, although the generator has drawn them, from all alternatives or from some.

- `derive_of_generate`: the derivation of a generated sentence is what the generator chose, in order.
-/
import Mathlib
import SimpleGrammar.Proofs.Generation.Soundness
import SimpleGrammar.Proofs.Recognition.Language

namespace SimpleGrammar

open Sentence

/-- **Choices are recovered.** When every alternative begins with a terminal, a different one for each alternative of
a nonterminal, a generated sentence is accepted, whatever the draws and the depth limit. Its derivation has the
nonterminals that the generator visited and the indices of the alternatives that it chose for them, in the order of
the visits. -/
theorem derive_of_generate (g : Grammar)
    (hg : ∀ n alts, g.alternatives? n = some alts →
      (∀ r ∈ alts, ∃ c, r.head? = some (.terminal c)) ∧ (alts.map List.head?).Nodup)
    (d : Draws) (maxDepth : Nat) (start : Char) (position : Nat) (w : List Char)
    (h : (generate g d maxDepth start position).result = .ok w) :
    ∃ steps, g.derive w start = .ok steps ∧
      (generate g d maxDepth start position).visits.reverse.map (fun v => (v.nonterminal, v.chosen)) =
        steps.map fun s => (s.nonterminal, some s.alternative) := by
  have hleading : ∀ s r, g.Rule s r → g.LeadingRule s r := by
    intro s r hr
    obtain ⟨alts, halts, hi⟩ := Grammar.rule_iff.1 hr
    obtain ⟨hfirst, hdistinct⟩ := hg _ alts halts
    obtain ⟨c, hc⟩ := hfirst r (List.mem_of_getElem? hi)
    exact leadingRule_of_distinct hr halts hdistinct hc
  obtain ⟨t, hroots, rfl, ht, hvisits⟩ := exists_forest_of_generate h
  have hleftmost : Leftmost g.LeadingRule [.ofChar start] t.steps (word t.yield) := by
    rw [← hroots]
    exact (Forest.leftmost_of_follows ht.follows).mono hleading
  refine ⟨t.steps, runFrom_ok_iff_leftmost.2 hleftmost, ?_⟩
  rw [hvisits, ← t.map_fst_nodes 0, List.map_map, List.map_map]
  rfl

/-- `S -> aSSb | c` -/
def bracketed : Grammar := .ofRules [('S', ["aSSb", "c"])]

/-- with depth limit 1 and draws at zero the first of all alternatives is chosen and then, twice, the first of those
without nonterminals; the recognizer finds the indices 0, 1 and 1 in `accb` -/
theorem derive_of_generate_bracketed :
    (∀ n alts, bracketed.alternatives? n = some alts →
      (∀ r ∈ alts, ∃ c, r.head? = some (.terminal c)) ∧ (alts.map List.head?).Nodup) ∧
    (generate bracketed (.ofList []) 1 'S' 0).result = .ok ['a', 'c', 'c', 'b'] ∧
    bracketed.derive ['a', 'c', 'c', 'b'] 'S' = .ok [⟨'S', 0⟩, ⟨'S', 1⟩, ⟨'S', 1⟩] := by
  have hfirst : ∀ n alts, bracketed.alternatives? n = some alts →
      (∀ r ∈ alts, ∃ c, r.head? = some (.terminal c)) ∧ (alts.map List.head?).Nodup := by
    intro n alts halts
    have hall : ∀ e ∈ bracketed.rules.entries,
        (∀ r ∈ e.2, r.head? = some (.terminal 'a') ∨ r.head? = some (.terminal 'c')) ∧ (e.2.map List.head?).Nodup := by
      decide
    obtain ⟨hhead, hnodup⟩ := hall _ (CharMap.mem_entries_iff.2 halts)
    exact ⟨fun r hr => (hhead r hr).elim (⟨'a', ·⟩) (⟨'c', ·⟩), hnodup⟩
  have hrun : (generate bracketed (.ofList []) 1 'S' 0).result = .ok ['a', 'c', 'c', 'b'] := by cbv
  have hvisits : (generate bracketed (.ofList []) 1 'S' 0).visits.reverse.map (fun v => (v.nonterminal, v.chosen)) =
      [⟨'S', 0⟩, ⟨'S', 1⟩, ⟨'S', 1⟩].map fun s : Step => (s.nonterminal, some s.alternative) := by cbv
  obtain ⟨steps, hsteps, heq⟩ := derive_of_generate bracketed hfirst (.ofList []) 1 'S' 0 _ hrun
  have hinjective : Function.Injective fun s : Step => (s.nonterminal, some s.alternative) := by
    intro s t h
    cases s
    cases t
    simpa using h
  rw [List.map_injective_iff.2 hinjective (heq.symm.trans hvisits)] at hsteps
  exact ⟨hfirst, hrun, hsteps⟩

end SimpleGrammar
