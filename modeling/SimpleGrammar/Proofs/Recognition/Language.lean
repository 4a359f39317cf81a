/-
The language that is recognized.

The recognizer follows the leftmost derivation by the leading rules: of the alternatives of a nonterminal, those that
begin with a terminal which no earlier one begins with. This holds of every grammar, simple or not. What the recognizer
cannot select is what has no part in its language.

- `leadingRule_iff_select`: a leading rule is one that some character selects.
- `runFrom_ok_iff_leftmost`: a run accepts with the steps of a leftmost derivation of its input from its stack.
- `derive_ok_iff_leftmost`: the same from a start symbol; the derivation is the only one, and its steps can be replayed.
-/
import Mathlib
import SimpleGrammar.CommandLine.Run
import SimpleGrammar.Proofs.Derivation
import SimpleGrammar.Proofs.Outcome
import SimpleGrammar.Proofs.Recognition.Run

namespace SimpleGrammar

variable {g : Grammar}

/-- a leading rule is the alternative that its first character selects -/
theorem leadingRule_iff_select {n c : Char} {i : Nat} {r : Rhs} :
    g.LeadingRule ⟨n, i⟩ r ∧ r.head? = some (.terminal c) ↔
      select ((g.alternatives? n).getD []) c = some (r, i) := by
  rw [select_eq_some_iff]
  cases hn : g.alternatives? n with
  | none => simp [Grammar.LeadingRule, Grammar.Rule, Grammar.alternative?, hn]
  | some alts =>
    simp only [Grammar.LeadingRule, Grammar.Rule, Grammar.alternative?, hn, Option.bind_some, Option.getD_some]
    constructor
    · rintro ⟨⟨hr, t, ht, hbefore⟩, hc⟩
      rw [hc] at ht
      cases ht
      exact ⟨hr, hc, hbefore⟩
    · rintro ⟨hr, hc, hbefore⟩
      exact ⟨⟨hr, c, hc, hbefore⟩, hc⟩

/-- what is derived by leading rules from a form with a symbol in it is not empty -/
theorem not_leftmost_leadingRule_nil {x : Symbol} {a : List Symbol} {d : Derivation} :
    ¬ Leftmost g.LeadingRule (x :: a) d (word []) := by
  intro h
  cases x with
  | terminal c =>
    obtain ⟨b, hb, -⟩ := leftmost_terminal.1 h
    cases hb
  | nonterminal n =>
    obtain ⟨i, r, t, -, ⟨-, c, hc, -⟩, h⟩ := leftmost_nonterminal.1 h
    obtain ⟨tail, rfl⟩ := List.head?_eq_some_iff.1 hc
    obtain ⟨b, hb, -⟩ := leftmost_terminal.1 h
    cases hb

/-- by leading rules a nonterminal in front of a word is replaced by what the first character selects -/
theorem leftmost_leadingRule_nonterminal {n c : Char} {a : List Symbol} {d : Derivation} {w : List Char} :
    Leftmost g.LeadingRule (.nonterminal n :: a) d (word (c :: w)) ↔
      ∃ r i t, select ((g.alternatives? n).getD []) c = some (r, i) ∧ d = ⟨n, i⟩ :: t ∧
        Leftmost g.LeadingRule (r.tail ++ a) t (word w) := by
  rw [leftmost_nonterminal]
  constructor
  · rintro ⟨i, r, t, rfl, hr, h⟩
    have ⟨_, e, he, _⟩ := hr
    obtain ⟨tail, rfl⟩ := List.head?_eq_some_iff.1 he
    obtain ⟨b, hb, h⟩ := leftmost_terminal.1 h
    cases hb
    exact ⟨_, i, t, leadingRule_iff_select.1 ⟨hr, he⟩, rfl, h⟩
  · rintro ⟨r, i, t, hsel, rfl, h⟩
    obtain ⟨hr, hc⟩ := leadingRule_iff_select.2 hsel
    obtain ⟨tail, rfl⟩ := List.head?_eq_some_iff.1 hc
    exact ⟨i, _, t, rfl, hr, leftmost_terminal.2 ⟨_, rfl, h⟩⟩

/-- **A run is a leftmost derivation.** It accepts with the steps `d` exactly when `d` is a leftmost derivation of the
input from the stack by leading rules. -/
theorem runFrom_ok_iff_leftmost {stack : List Symbol} {w : List Char} {p : Nat} {d : Derivation} :
    runFrom g ⟨stack, w, p⟩ = .ok d ↔ Leftmost g.LeadingRule stack d (word w) := by
  induction w generalizing stack p d with
  | nil =>
    cases stack with
    | nil => simp [leftmost_empty, eq_comm]
    | cons x below => simpa using not_leftmost_leadingRule_nil
  | cons c w ih =>
    rcases stack with _ | ⟨t | n, below⟩
    · simp [leftmost_empty]
    · rw [runFrom_terminal, leftmost_terminal, word_cons]
      split
      · next h =>
        subst h
        simp [ih]
      · next h => simp [Ne.symm h]
    · rw [runFrom_nonterminal, leftmost_leadingRule_nonterminal]
      cases hsel : select ((g.alternatives? n).getD []) c with
      | none => simp
      | some a =>
        simp only [Option.some.injEq, Outcome.map_eq_ok_iff, ih]
        constructor
        · rintro ⟨t, ht, rfl⟩
          exact ⟨a.1, a.2, t, rfl, rfl, ht⟩
        · rintro ⟨r, i, t, rfl, rfl, ht⟩
          exact ⟨t, ht, rfl⟩

/-- the steps of a leftmost derivation by leading rules lead to the word by all rules -/
theorem replay_of_leftmost_leadingRule {a b : List Symbol} {d : Derivation} (h : Leftmost g.LeadingRule a d b) :
    g.replay a d = some b :=
  Grammar.replay_eq_some_iff.2 (h.mono fun _ _ hr => hr.1)

/-- **The language of the recognizer.** For every grammar, an input is accepted with the derivation `d` exactly when `d`
is a leftmost derivation of it from the start symbol by leading rules. There is at most one such derivation. Replayed by
the rules of the grammar it gives the characters of the input, and every step of it names an alternative that exists,
which is the one its line shows. -/
theorem derive_ok_iff_leftmost (g : Grammar) (w : List Char) (s : Char) :
    (∀ d, g.derive w s = .ok d ↔ Leftmost g.LeadingRule [.ofChar s] d (word w)) ∧
    (∀ d e, Leftmost g.LeadingRule [.ofChar s] d (word w) → Leftmost g.LeadingRule [.ofChar s] e (word w) → d = e) ∧
    ∀ d, g.derive w s = .ok d → g.replay [.ofChar s] d = some (word w) ∧
      ∀ step ∈ d, ∃ alts r, g.alternatives? step.nonterminal = some alts ∧ alts[step.alternative]? = some r ∧
        CommandLine.stepLine g step = "    " ++ String.singleton step.nonterminal ++ " -> " ++ r.display := by
  have hiff : ∀ d, g.derive w s = .ok d ↔ Leftmost g.LeadingRule [.ofChar s] d (word w) := fun d =>
    runFrom_ok_iff_leftmost
  refine ⟨hiff, fun d e hd he => ?_, fun d hd => ⟨?_, fun step hstep => ?_⟩⟩
  · have h := (hiff d).2 hd
    rw [(hiff e).2 he] at h
    exact (Except.ok.inj h).symm
  · exact replay_of_leftmost_leadingRule ((hiff d).1 hd)
  · obtain ⟨r, hr, -⟩ := ((hiff d).1 hd).rule step hstep
    obtain ⟨alts, halts, hr⟩ := Grammar.rule_iff.1 hr
    exact ⟨alts, r, halts, hr, by simp [CommandLine.stepLine, halts, hr]⟩

/-- `S -> aB | c` and `B -> aB | b` -/
def rightLinear : Grammar := .ofRules [('S', ["aB", "c"]), ('B', ["aB", "b"])]

/-- `aab` is recognized by a leftmost derivation in three steps -/
theorem leftmost_rightLinear :
    Leftmost rightLinear.LeadingRule [.ofChar 'S'] [⟨'S', 0⟩, ⟨'B', 0⟩, ⟨'B', 1⟩] (word ['a', 'a', 'b']) ∧
      rightLinear.replay [.ofChar 'S'] [⟨'S', 0⟩, ⟨'B', 0⟩, ⟨'B', 1⟩] = some (word ['a', 'a', 'b']) := by
  have hrun : rightLinear.derive ['a', 'a', 'b'] 'S' = .ok [⟨'S', 0⟩, ⟨'B', 0⟩, ⟨'B', 1⟩] := by cbv
  obtain ⟨hiff, -, hreplay⟩ := derive_ok_iff_leftmost rightLinear ['a', 'a', 'b'] 'S'
  exact ⟨(hiff _).1 hrun, (hreplay _ hrun).1⟩

end SimpleGrammar
