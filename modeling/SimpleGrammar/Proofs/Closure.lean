/-
Loaded grammars are closed.

Loading checks line by line what a rule is made of, and at the end that every nonterminal used has a rule. So a
grammar that was loaded uses no nonterminal that it does not define, and a run of the generator, which only goes from
nonterminals to those of their alternatives, meets none either.

- `inherited_defined`: being defined goes over to what the alternatives use.
- `closed_of_loadText`: what a loaded grammar is made of, and what follows for its runs.
-/
import SimpleGrammar.Proofs.Generation.Visits
import SimpleGrammar.Proofs.Source.RoundTrip

namespace SimpleGrammar

open Sentence

variable {g : Grammar}

/-- where all nonterminals in alternatives are defined, expansion hands this down -/
theorem inherited_defined (hg : ∀ r, g.Alternative r → ∀ n, .nonterminal n ∈ r → n ∈ g.nonterminals) (maxDepth : Nat) :
    Inherited g maxDepth fun _ n => n ∈ g.nonterminals := by
  intro depth n alts r i _ halts hr m hm
  have hmem : r ∈ alts := List.mem_of_getElem? (mem_eligible_iff.1 hr).1
  exact hg r ⟨n, alts, halts, hmem⟩ m hm

/-- a run whose visits are all of defined nonterminals does not end for want of a definition -/
theorem result_ne_undefinedNonterminal {run : Run} {limit : Nat}
    (h : run.Faithful g (fun _ n => n ∈ g.nonterminals) limit) (n : Char) :
    run.result ≠ .error (.undefinedNonterminal n) := by
  intro hresult
  obtain ⟨v, hv, rfl, hundefined⟩ := h.explained _ (Run.result_eq_error_iff.1 hresult)
  have hdefined := Grammar.mem_nonterminals_iff.1 (h.visited v hv)
  rw [hundefined] at hdefined
  cases hdefined

/-- **Loaded grammars are closed.** The start symbol of a grammar that was loaded is one of its nonterminals, unless
it has none. Each nonterminal, and each symbol in an alternative, is a character that is a symbol in written grammars
and has the role that it has there, and the nonterminals in alternatives are defined. So from a defined start symbol,
whatever the draws and the depth limit, a run visits defined nonterminals only and does not end for want of a
definition. -/
theorem closed_of_loadText (origin : String) (text : List Char) (g : Grammar)
    (h : Source.loadText origin text = .ok g) :
    g.Readable ∧ (∀ n ∈ g.nonterminals, Source.Plain n) ∧ (∀ r, g.Alternative r → r.Readable) ∧
    ∀ start ∈ g.nonterminals, ∀ d maxDepth position,
      (∀ v ∈ (generate g d maxDepth start position).visits, v.nonterminal ∈ g.nonterminals) ∧
        ∀ n, (generate g d maxDepth start position).result ≠ .error (.undefinedNonterminal n) := by
  have hg := readable_of_loadText h
  refine ⟨hg, ?_, fun r => Grammar.readable_of_alternative hg, ?_⟩
  · intro n hn
    exact Source.plain_of_isUppercase (Symbol.ofChar_eq_nonterminal_iff.1 (hg.key n hn))
  · intro start hstart d maxDepth position
    have hstarts : ∀ n, Symbol.ofChar start = .nonterminal n → n ∈ g.nonterminals := by
      intro n hn
      rw [hg.key start hstart] at hn
      cases hn
      exact hstart
    have hrun : (generate g d maxDepth start position).Faithful g (fun _ n => n ∈ g.nonterminals) _ :=
      faithful_generate (inherited_defined hg.defined maxDepth) hstarts
    exact ⟨hrun.visited, result_ne_undefinedNonterminal hrun⟩

/-- `T -> ,S` and `S -> xT | x` -/
def separated : Grammar := .ofRules [('T', [",S"]), ('S', ["xT", "x"])]

/-- two rules that use each other; the first line uses `S` before it is defined -/
theorem closed_of_loadText_separated :
    Source.loadText "lists" "T -> ,S\nS -> xT | x\n".toList = .ok separated ∧ separated.Readable ∧
      separated.start = some 'T' ∧ 'S' ∈ separated.nonterminals ∧
      ∀ d maxDepth n, (generate separated d maxDepth 'S' 0).result ≠ .error (.undefinedNonterminal n) := by
  have hload : Source.loadText "lists" "T -> ,S\nS -> xT | x\n".toList = .ok separated := by cbv
  have hmem : 'S' ∈ separated.nonterminals := by decide
  obtain ⟨hg, -, -, hrun⟩ := closed_of_loadText _ _ _ hload
  exact ⟨hload, hg, rfl, hmem, fun d maxDepth => (hrun 'S' hmem d maxDepth 0).2⟩

end SimpleGrammar
