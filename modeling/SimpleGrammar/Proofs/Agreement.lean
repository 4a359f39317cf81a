/-
Where simplicity, recognition and generation agree.

In a simple grammar the first character selects among the alternatives that begin with a terminal. An alternative that
is a nonterminal alone is simple too, but no character selects it. So the recognizer decides what is derived without
such alternatives, while the generator uses them like all others.

- `recognizes_iff_of_isSimple`: what is recognized, when that is all that is derived, and which generated sentences are
  recognized.
- `generated_not_recognized`: a simple grammar with a sentence that is generated and not recognized.
-/
import SimpleGrammar.Proofs.Generation.Soundness
import SimpleGrammar.Proofs.Grammar.Definitions
import SimpleGrammar.Proofs.Recognition.Language
import SimpleGrammar.Proofs.Simplicity

namespace SimpleGrammar

/-- an input is recognized when it is derived by leading rules -/
theorem recognizes_iff_derives_leadingRule {g : Grammar} {w : List Char} {s : Char} :
    g.recognizes w s = true ↔ Derives g.LeadingRule [.ofChar s] (word w) := by
  have hok : g.recognizes w s = true ↔ ∃ d, g.derive w s = .ok d := by
    rw [Grammar.recognizes]
    cases g.derive w s <;> simp [Except.isOk, Except.toBool]
  rw [hok, derives_iff_yields, ← exists_leftmost_iff_yields]
  exact exists_congr fun d => runFrom_ok_iff_leftmost

/-- in a simple grammar an input is recognized when it is derived without nonterminals alone -/
theorem recognizes_iff_derives_nonunitRule {g : Grammar} (hg : g.isSimple = true) {s : Char}
    (hs : Text.isUppercase s = true) (w : List Char) :
    g.recognizes w s = true ↔ Derives g.NonunitRule [.nonterminal s] (word w) := by
  have hrules : g.LeadingRule = g.NonunitRule := by
    funext s r
    exact propext (leadingRule_iff_of_isSimple hg)
  rw [recognizes_iff_derives_leadingRule, hrules, Symbol.ofChar, if_pos hs]

/-- **Agreement on simple grammars.** From an uppercase start symbol a simple grammar's sentences are recognized exactly
when they are derived without the rules that are a nonterminal alone. So recognition decides derivation exactly when
these rules add no sentence. Every generated sentence is derived, and recognized under the same condition. Without such
rules recognition decides derivation and every generated sentence is recognized. -/
theorem recognizes_iff_of_isSimple (g : Grammar) (hg : g.isSimple = true) (start : Char)
    (hs : Text.isUppercase start = true) :
    (∀ w, g.recognizes w start = true ↔ Derives g.NonunitRule [.nonterminal start] (word w)) ∧
    ((∀ w, g.recognizes w start = true ↔ Derives g.Rule [.nonterminal start] (word w)) ↔
      ∀ w, Derives g.Rule [.nonterminal start] (word w) → Derives g.NonunitRule [.nonterminal start] (word w)) ∧
    (∀ d maxDepth position w, (Sentence.generate g d maxDepth start position).result = .ok w →
      Derives g.Rule [.nonterminal start] (word w) ∧
        (g.recognizes w start = true ↔ Derives g.NonunitRule [.nonterminal start] (word w))) ∧
    ((∀ s r, g.Rule s r → ∀ m, r ≠ [.nonterminal m]) →
      (∀ w, g.recognizes w start = true ↔ Derives g.Rule [.nonterminal start] (word w)) ∧
        ∀ d maxDepth position w, (Sentence.generate g d maxDepth start position).result = .ok w →
          g.recognizes w start = true) := by
  have hrec := recognizes_iff_derives_nonunitRule hg hs
  have hall : ∀ {w}, Derives g.NonunitRule [.nonterminal start] (word w) →
      Derives g.Rule [.nonterminal start] (word w) :=
    fun h => h.mono fun _ _ hr => hr.1
  have hgen : ∀ d maxDepth position w, (Sentence.generate g d maxDepth start position).result = .ok w →
      Derives g.Rule [.nonterminal start] (word w) := by
    intro d maxDepth position w h
    have hyields := Sentence.yields_of_generate h
    rw [Symbol.ofChar, if_pos hs] at hyields
    exact derives_iff_yields.2 hyields
  refine ⟨hrec, ⟨fun h w hw => ?_, fun h w => ?_⟩, fun d maxDepth position w h => ⟨hgen d _ _ w h, hrec w⟩,
    fun hunit => ?_⟩
  · exact (hrec w).1 ((h w).2 hw)
  · exact (hrec w).trans ⟨hall, h w⟩
  · have hnonunit : ∀ {w}, Derives g.Rule [.nonterminal start] (word w) →
        Derives g.NonunitRule [.nonterminal start] (word w) := fun h => h.mono fun s r hr => ⟨hr, hunit s r hr⟩
    exact ⟨fun w => (hrec w).trans ⟨hall, hnonunit⟩, fun d _ _ w h => (hrec w).2 (hnonunit (hgen d _ _ w h))⟩

/-- without a lone nonterminal a derived sentence is recognized and a recognized sentence is derived -/
theorem recognizes_iff_rightLinear :
    rightLinear.isSimple = true ∧ Text.isUppercase 'S' = true ∧
      Derives rightLinear.Rule [.nonterminal 'S'] (word ['a', 'a', 'b']) := by
  have hunit : ∀ s r, rightLinear.Rule s r → ∀ m, r ≠ [.nonterminal m] := by
    intro s r hr m heq
    obtain ⟨alts, halts, hi⟩ := Grammar.rule_iff.1 hr
    obtain ⟨d, hd, hr⟩ := Grammar.alternative_ofDefinitions_iff.1 ⟨_, _, halts, List.mem_of_getElem? hi⟩
    have hfirst : ∀ e ∈ [('S', ["aB", "c"]), ('B', ["aB", "b"])], ∀ text ∈ e.2,
        (Rhs.ofText text.toList).head?.any Symbol.isNonterminal = false := by decide
    obtain ⟨e, he, rfl⟩ := List.mem_map.1 hd
    obtain ⟨text, htext, rfl⟩ := List.mem_map.1 hr
    have hterminal := hfirst e he text htext
    rw [heq] at hterminal
    cases hterminal
  have hsimple : rightLinear.isSimple = true := by decide
  have hstart : Text.isUppercase 'S' = true := by decide
  obtain ⟨-, -, -, hagree⟩ := recognizes_iff_of_isSimple rightLinear hsimple 'S' hstart
  exact ⟨hsimple, hstart, ((hagree hunit).1 _).1 (by cbv)⟩

/-- `S -> A | b` and `A -> a` -/
def loneNonterminal : Grammar :=
  .ofRules [('S', ["A", "b"]), ('A', ["a"])]

/-- **A generated sentence that is not recognized.** The grammar is simple, `a` is derived from `S` and generated with
the first draws at zero, and it is not recognized. -/
theorem generated_not_recognized :
    loneNonterminal.isSimple = true ∧ Derives loneNonterminal.Rule [.nonterminal 'S'] (word ['a']) ∧
      (Sentence.generate loneNonterminal (.ofList []) 32 'S' 0).result = .ok ['a'] ∧
      loneNonterminal.recognizes ['a'] 'S' = false := by
  refine ⟨by decide, ?_, ?_, ?_⟩
  · have hr : loneNonterminal.Rule ⟨'S', 0⟩ [.nonterminal 'A'] := by decide
    have hq : loneNonterminal.Rule ⟨'A', 0⟩ [.terminal 'a'] := by decide
    exact derives_iff_yields.2 (.nonterminal hr (.nonterminal hq (yields_word ['a']) .nil) .nil)
  · cbv
  · cbv

end SimpleGrammar
