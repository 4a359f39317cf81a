/-
What a run visits, and what its errors are about.

A run goes from a nonterminal to those of the alternative chosen for it, one level deeper. So whatever holds of the
start symbol and goes over to the nonterminals of eligible alternatives (`Inherited`) holds of all that a run visits.
An error is about the last visit, and says of it what is the case (`Explains`).

- `Inherited`: a property of nonterminals and depths that expansion hands down.
- `Run.Faithful`: it holds of all visits, and an error is explained by one of them.
- `expand_nonterminal_cases`: what becomes of a nonterminal.
- `faithful_expand`, `faithful_generate`: every run from a symbol that has the property is faithful.
-/
import SimpleGrammar.Proofs.Generation.Choice

namespace SimpleGrammar.Sentence

variable {g : Grammar} {d : Draws} {maxDepth levels limit depth position : Nat} {P : Nat → Char → Prop}

/-- if `P` holds of a nonterminal at a depth, then it holds of those in its eligible alternatives one level deeper -/
def Inherited (g : Grammar) (maxDepth : Nat) (P : Nat → Char → Prop) : Prop :=
  ∀ depth n alts r i, P depth n → g.alternatives? n = some alts → (r, i) ∈ eligible alts depth maxDepth →
    ∀ m, .nonterminal m ∈ r → P (depth + 1) m

/-- the error is what becomes of the visit `v` when nonterminals are given up at the depth `limit` -/
def Explains (g : Grammar) (limit : Nat) (v : Visit) : GenerationError → Prop
  | .undefinedNonterminal n => v.nonterminal = n ∧ g.alternatives? n = none
  | .noRules n => v.nonterminal = n ∧ g.alternatives? n = some []
  | .depthExceeded n => v.nonterminal = n ∧ (g.alternatives? n).isSome ∧ v.depth = limit

/-- a run whose visits all have the property, and whose error, if it has one, comes from one of them -/
structure Run.Faithful (g : Grammar) (P : Nat → Char → Prop) (limit : Nat) (run : Run) : Prop where
  visited : ∀ v ∈ run.visits, P v.depth v.nonterminal
  explained : ∀ e, run.error = some e → ∃ v ∈ run.visits, Explains g limit v e

/-! ## What a run does -/

variable {run : Run}

theorem Run.result_eq_error_iff {e : GenerationError} : run.result = .error e ↔ run.error = some e := by
  unfold Run.result
  cases run.error <;> simp

theorem Run.faithful_start (position : Nat) : (Run.start position).Faithful g P limit :=
  ⟨by simp [Run.start], by simp [Run.start]⟩

namespace Run.Faithful

theorem write (h : run.Faithful g P limit) (c : Char) : (run.write c).Faithful g P limit :=
  ⟨h.visited, h.explained⟩

theorem visit (h : run.Faithful g P limit) {v : Visit} (hv : P v.depth v.nonterminal) (position : Nat) :
    (run.visit v position).Faithful g P limit := by
  refine ⟨List.forall_mem_cons.2 ⟨hv, h.visited⟩, ?_⟩
  intro e he
  obtain ⟨w, hw, hexplains⟩ := h.explained e he
  exact ⟨w, List.mem_cons_of_mem _ hw, hexplains⟩

theorem fail (h : run.Faithful g P limit) {v : Visit} {e : GenerationError} (hv : P v.depth v.nonterminal)
    (hexplains : Explains g limit v e) : (run.fail v e).Faithful g P limit := by
  refine ⟨List.forall_mem_cons.2 ⟨hv, h.visited⟩, ?_⟩
  intro e' he'
  cases he'
  exact ⟨v, List.mem_cons_self, hexplains⟩

theorem andThen {f : Run → Run} (h : run.Faithful g P limit) (hf : (f run).Faithful g P limit) :
    (run.andThen f).Faithful g P limit := by
  unfold Run.andThen
  split
  · exact h
  · exact hf

theorem foldl {f : Symbol → Run → Run} {a : List Symbol} (h : run.Faithful g P limit)
    (hf : ∀ s ∈ a, ∀ run : Run, run.Faithful g P limit → (f s run).Faithful g P limit) :
    (a.foldl (fun run s => run.andThen (f s)) run).Faithful g P limit := by
  induction a generalizing run with
  | nil => exact h
  | cons s a ih =>
    obtain ⟨hs, ha⟩ := List.forall_mem_cons.1 hf
    exact ih (h.andThen (hs run h)) ha

end Run.Faithful

/-! ## Runs -/

/-- **A nonterminal of a run.** It is given up, and what is the case says why, or it is expanded, and then the run
goes through the alternative chosen for it, one level deeper and with one level less. -/
theorem expand_nonterminal_cases (d : Draws) (levels depth : Nat) (n : Char) (run : Run) :
    (∃ e, expand g d maxDepth levels depth (.nonterminal n) run = run.fail ⟨n, depth, none⟩ e ∧
      Explains g (depth + levels) ⟨n, depth, none⟩ e) ∨
    ∃ alts r i next below, levels = below + 1 ∧ g.alternatives? n = some alts ∧
      chooseAlternative d alts depth maxDepth run.position = some ((r, i), next) ∧
      expand g d maxDepth levels depth (.nonterminal n) run =
        r.foldl (fun run s => run.andThen (expand g d maxDepth below (depth + 1) s))
          (run.visit ⟨n, depth, some i⟩ next) := by
  rw [expand]
  cases halts : g.alternatives? n with
  | none => exact .inl ⟨.undefinedNonterminal n, rfl, rfl, halts⟩
  | some alts =>
    cases levels with
    | zero => exact .inl ⟨.depthExceeded n, rfl, rfl, Option.isSome_of_eq_some halts, rfl⟩
    | succ below =>
      cases hchoice : chooseAlternative d alts depth maxDepth run.position with
      | none =>
        have hnone := chooseAlternative_eq_none_iff.1 hchoice
        subst hnone
        exact .inl ⟨.noRules n, by simp only [hchoice], rfl, halts⟩
      | some x =>
        obtain ⟨⟨r, i⟩, next⟩ := x
        exact .inr ⟨alts, r, i, next, below, rfl, rfl, hchoice, by simp only [hchoice]⟩

/-- **A symbol is expanded.** From a symbol that has the property at its depth a faithful run goes on faithfully. -/
theorem faithful_expand (hP : Inherited g maxDepth P) {s : Symbol} (hs : ∀ n, s = .nonterminal n → P depth n)
    (h : run.Faithful g P (depth + levels)) :
    (expand g d maxDepth levels depth s run).Faithful g P (depth + levels) := by
  induction levels using Nat.strongRecOn generalizing depth s run with
  | ind levels ih =>
    cases s with
    | terminal c =>
      rw [expand]
      exact h.write c
    | nonterminal n =>
      have hn := hs n rfl
      rcases expand_nonterminal_cases d levels depth n run with
        ⟨e, heq, hexplains⟩ | ⟨alts, r, i, next, below, rfl, halts, hchoice, heq⟩
      · rw [heq]
        exact h.fail hn hexplains
      · have hbelow := hP depth n alts r i hn halts (mem_eligible_of_chooseAlternative hchoice)
        -- one level is used up by the depth that it is used for
        have hlimit : depth + (below + 1) = depth + 1 + below := by omega
        rw [heq]
        rw [hlimit] at h ⊢
        refine (h.visit (v := ⟨n, depth, some i⟩) hn next).foldl ?_
        intro s hmem run hrun
        refine ih below (Nat.lt_succ_self below) ?_ hrun
        rintro m rfl
        exact hbelow m hmem

/-- **A run from its start.** All that it visits has the property if the start symbol has it at depth 0, and an error is
about a nonterminal visited. -/
theorem faithful_generate (hP : Inherited g maxDepth P) {start : Char}
    (hstart : ∀ n, Symbol.ofChar start = .nonterminal n → P 0 n) :
    (generate g d maxDepth start position).Faithful g P (depthLimit maxDepth + 1) := by
  have h : (generate g d maxDepth start position).Faithful g P (0 + (depthLimit maxDepth + 1)) :=
    faithful_expand hP hstart (Run.faithful_start position)
  rwa [Nat.zero_add] at h

end SimpleGrammar.Sentence
