/-
What steering is for.

When every nonterminal that can be reached has an alternative without nonterminals, all that is expanded at the depth
limit is expanded to such an alternative, so a run goes no deeper and nothing can end it but its sentence. And where
no alternative hands on more than one nonterminal, there is one expansion at each depth, and the sentence is what
these have written.

- `inherited_reached`: to be reached, and to be no deeper than the limit, is handed on by expansion.
- `Forest.length_yield_le`, `length_le_of_generate`: a sentence is no longer than what its steps may write.
- `length_visits_le`: with one nonterminal at each depth, no more visits than depths.
- `generate_of_hasWord`: every run comes to a sentence, of a length that the depth limit bounds.
-/
import SimpleGrammar.Proofs.Derivation.Chain
import SimpleGrammar.Proofs.Generation.Bounds
import SimpleGrammar.Proofs.Generation.Descent
import SimpleGrammar.Proofs.Generation.Soundness

namespace SimpleGrammar

variable {g : Grammar}

/-! ## What the steps write -/

/-- **Length of a sentence.** A forest yields the terminals among its roots and what its steps bring, each no more
than the most terminals of an alternative. -/
theorem Forest.length_yield_le {m : Nat} (hm : ∀ r, g.Alternative r → r.terminals.length ≤ m) {t : Forest}
    (ht : t.Follows g.Rule) : t.yield.length ≤ (Rhs.terminals t.roots).length + t.steps.length * m := by
  induction t with
  | empty => exact Nat.zero_le _
  | terminal c rest ih =>
    have hrest := ih ht
    rw [roots, yield, steps, terminals_terminal_cons, List.length_cons, List.length_cons]
    omega
  | nonterminal s below rest ihb ihr =>
    obtain ⟨hrule, hbelow, hrest⟩ := ht
    obtain ⟨alts, halts, hat⟩ := Grammar.rule_iff.1 hrule
    have hroots := hm below.roots ⟨s.nonterminal, alts, halts, List.mem_of_getElem? hat⟩
    have hyb := ihb hbelow
    have hyr := ihr hrest
    calc (nonterminal s below rest).yield.length
        = below.yield.length + rest.yield.length := by rw [yield, List.length_append]
      _ ≤ (m + below.steps.length * m) + ((Rhs.terminals rest.roots).length + rest.steps.length * m) := by omega
      _ = (Rhs.terminals (nonterminal s below rest).roots).length + (nonterminal s below rest).steps.length * m := by
        rw [roots, steps, terminals_nonterminal_cons, List.length_cons, List.length_append, Nat.add_mul,
          Nat.add_mul, Nat.one_mul]
        omega

namespace Sentence

open Finset

variable {d : Draws} {maxDepth position : Nat} {start : Char}

/-! ## Runs that cannot fail -/

/-- **Steering holds a run back.** What can be reached, and is no deeper than the limit, hands nothing on below the
limit. -/
theorem inherited_reached (hwords : ∀ n, g.Reaches start n → g.HasWord n) (maxDepth : Nat) :
    Inherited g maxDepth fun depth n => g.Reaches start n ∧ depth ≤ maxDepth := by
  rintro depth n alts r i ⟨hreached, hdepth⟩ halts hr m hm
  obtain ⟨hleads, hwordless⟩ := leadsTo_of_mem_eligible halts hr hm
  refine ⟨hreached.tail hleads, ?_⟩
  by_contra hdeep
  exact hwordless (by omega) (hwords n hreached)

/-- a run that comes to nothing but nonterminals with words, above a limit, has no error -/
theorem error_eq_none_of_faithful {run : Run} {limit : Nat} (hlimit : maxDepth < limit)
    (hwords : ∀ n, g.Reaches start n → g.HasWord n)
    (h : run.Faithful g (fun depth n => g.Reaches start n ∧ depth ≤ maxDepth) limit) : run.error = none := by
  rw [Option.eq_none_iff_forall_ne_some]
  intro e he
  obtain ⟨v, hv, hexplains⟩ := h.explained e he
  obtain ⟨hreached, hdepth⟩ := h.visited v hv
  obtain ⟨alts, halts, u, hu⟩ := hwords _ hreached
  cases e with
  | undefinedNonterminal n =>
    obtain ⟨rfl, hnone⟩ := hexplains
    rw [halts] at hnone
    cases hnone
  | noRules n =>
    obtain ⟨rfl, hnone⟩ := hexplains
    rw [halts] at hnone
    cases hnone
    cases hu
  | depthExceeded n =>
    obtain ⟨-, -, hdeep⟩ := hexplains
    omega

/-! ## How much a run writes -/

/-- where no alternative hands on more than one nonterminal, there are no more visits than depths -/
theorem length_visits_le (hfits : depthLimit maxDepth + 1 < UInt64.size)
    (hone : ∀ r, g.Alternative r → r.nonterminalCount ≤ 1)
    (hdepth : ∀ v ∈ (generate g d maxDepth start position).visits, v.depth ≤ maxDepth) :
    (generate g d maxDepth start position).visits.length ≤ maxDepth + 1 := by
  have hcount : (generate g d maxDepth start position).visits.countP (fun _ => true) ≤
      ∑ j ∈ range (maxDepth + 1), 1 ^ j :=
    countP_visits_le hfits hone fun v hv _ => Nat.lt_succ_of_le (hdepth v hv)
  simpa using hcount

/-- a sentence from an uppercase start symbol has been written by the visits -/
theorem length_le_of_generate (hstart : Text.isUppercase start = true) {w : List Char}
    (h : (generate g d maxDepth start position).result = .ok w) :
    w.length ≤ (generate g d maxDepth start position).visits.length * g.largest fun r => r.terminals.length := by
  obtain ⟨t, hroots, rfl, ht, hvisits⟩ := exists_forest_of_generate h
  have hsteps : t.steps.length = (generate g d maxDepth start position).visits.length := by
    calc t.steps.length = (generate g d maxDepth start position).visits.reverse.length := by
          rw [← t.map_fst_nodes 0, List.length_map, hvisits, List.length_map]
      _ = (generate g d maxDepth start position).visits.length := List.length_reverse
  have hwritten : (Rhs.terminals t.roots).length = 0 := by
    have hroot : Symbol.ofChar start = .nonterminal start := if_pos hstart
    rw [hroots, hroot]
    rfl
  have hlargest := Grammar.largest_le_iff.1 (Nat.le_refl (g.largest fun r => r.terminals.length))
  have hyield := Forest.length_yield_le hlargest ht.follows
  rwa [hwritten, hsteps, Nat.zero_add] at hyield

/-! ## Every run succeeds -/

/-- **Steering succeeds.** When every nonterminal that can be reached from an uppercase start symbol has an
alternative without nonterminals, every run comes to a sentence, whatever the draws, and visits nothing deeper than
the depth limit. If no alternative has more than one nonterminal, then the sentence has at most as many characters as
the largest alternative has terminals, once for each depth down to the limit. -/
theorem generate_of_hasWord (g : Grammar) (start : Char) (hstart : Text.isUppercase start = true) (maxDepth : Nat)
    (hdepth : maxDepth < 2 ^ 63) (hwords : ∀ n, g.Reaches start n → g.HasWord n) (d : Draws) (position : Nat) :
    ∃ w, (generate g d maxDepth start position).result = .ok w ∧
      (∀ v ∈ (generate g d maxDepth start position).visits, v.depth ≤ maxDepth) ∧
      ((∀ r, g.Alternative r → r.nonterminalCount ≤ 1) →
        w.length ≤ (maxDepth + 1) * g.largest fun r => r.terminals.length) := by
  have hlimit := depthLimit_of_lt hdepth
  have hreached : ∀ n, Symbol.ofChar start = .nonterminal n → g.Reaches start n ∧ 0 ≤ maxDepth := by
    intro n hn
    rw [eq_of_ofChar_eq_nonterminal hn]
    exact ⟨.refl, Nat.zero_le _⟩
  have hrun : (generate g d maxDepth start position).Faithful g _ _ :=
    faithful_generate (inherited_reached hwords maxDepth) hreached
  have hvisits : ∀ v ∈ (generate g d maxDepth start position).visits, v.depth ≤ maxDepth :=
    fun v hv => (hrun.visited v hv).2
  have hresult : (generate g d maxDepth start position).result =
      .ok (generate g d maxDepth start position).written.reverse := by
    rw [Run.result, error_eq_none_of_faithful (by omega) hwords hrun]
  refine ⟨_, hresult, hvisits, fun hone => ?_⟩
  calc (generate g d maxDepth start position).written.reverse.length
      ≤ (generate g d maxDepth start position).visits.length * g.largest fun r => r.terminals.length :=
        length_le_of_generate hstart hresult
    _ ≤ (maxDepth + 1) * g.largest fun r => r.terminals.length :=
        Nat.mul_le_mul_right _ (length_visits_le (depthLimit_add_one_lt hdepth) hone hvisits)

/-- `S -> aB | c` and `B -> bbS | d` -/
def alternating : Grammar := .ofRules [('S', ["aB", "c"]), ('B', ["bbS", "d"])]

/-- with depth limit 2 the third expansion is steered, so the sentence has no more than six characters -/
theorem generate_of_hasWord_alternating :
    Text.isUppercase 'S' = true ∧ 2 < 2 ^ 63 ∧
      (∀ n, alternating.Reaches 'S' n → alternating.HasWord n) ∧
      (∀ r, alternating.Alternative r → r.nonterminalCount ≤ 1) ∧
      ∃ w, (generate alternating (.ofList []) 2 'S' 0).result = .ok w ∧ w.length ≤ 6 := by
  have hstart : Text.isUppercase 'S' = true := by decide
  have hdepth : 2 < 2 ^ 63 := by decide
  have hclosed : ∀ e ∈ alternating.rules.entries, ∀ r ∈ e.2, ∀ s ∈ r, s = .nonterminal s.char →
      s.char = 'S' ∨ s.char = 'B' := by decide
  have hword : ∀ n, n = 'S' ∨ n = 'B' → alternating.HasWord n := by
    rintro n (rfl | rfl)
    · exact ⟨_, rfl, ['c'], by decide⟩
    · exact ⟨_, rfl, ['d'], by decide⟩
  have hwords : ∀ n, alternating.Reaches 'S' n → alternating.HasWord n := by
    intro n hn
    apply hword
    rcases hn.cases_tail with rfl | ⟨m, -, alts, halts, r, hr, hmem⟩
    · exact .inl rfl
    · exact hclosed _ (CharMap.mem_entries_iff.2 halts) r hr _ hmem rfl
  have hone : ∀ r, alternating.Alternative r → r.nonterminalCount ≤ 1 := by
    rintro r ⟨n, alts, halts, hr⟩
    have hall : ∀ e ∈ alternating.rules.entries, ∀ r ∈ e.2, Rhs.nonterminalCount r ≤ 1 := by decide
    exact hall _ (CharMap.mem_entries_iff.2 halts) r hr
  obtain ⟨w, hresult, -, hlength⟩ := generate_of_hasWord alternating 'S' hstart 2 hdepth hwords (.ofList []) 0
  have hlargest : (alternating.largest fun r => r.terminals.length) = 2 := by decide
  have hbound := hlength hone
  rw [hlargest] at hbound
  exact ⟨hstart, hdepth, hwords, hone, w, hresult, hbound⟩

end Sentence

end SimpleGrammar
