/-
Chains: derivations in which every step hands over to the next.

Where every rule is terminals with at most one nonterminal after them, a form that is derived from a nonterminal has one
nonterminal at most, and has it at the end. So there is never a choice of what to replace, and the word is the terminals
of the steps one after the other.

- `chain_of_leftmost`: by such rules a leftmost derivation of a word from a nonterminal is a chain.
- `Chain.exists_cons`, `Chain.isChain`, `Chain.last_step`, `Chain.word_eq`: what that says of its first step, of two
  steps in a row, of its last step, and of the word.
-/
import SimpleGrammar.Proofs.Derivation
import SimpleGrammar.Proofs.Simplicity

namespace SimpleGrammar

variable {R : Rules} {n : Char} {d : Derivation} {w : List Char}

/-- the terminals of the alternative in order -/
def Rhs.terminals (r : Rhs) : List Char :=
  r.filterMap fun
    | .terminal c => some c
    | .nonterminal _ => none

theorem terminals_terminal_cons (c : Char) (r : Rhs) : Rhs.terminals (.terminal c :: r) = c :: r.terminals := rfl

theorem terminals_nonterminal_cons (m : Char) (r : Rhs) : Rhs.terminals (.nonterminal m :: r) = r.terminals := rfl

theorem terminals_word (u : List Char) : Rhs.terminals (word u) = u := by
  induction u with
  | nil => rfl
  | cons c u ih => exact (terminals_terminal_cons c _).trans (congrArg (c :: ·) ih)

theorem terminals_word_append_nonterminal (u : List Char) (m : Char) :
    Rhs.terminals (word u ++ [.nonterminal m]) = u := by
  have h := terminals_word u
  unfold Rhs.terminals at h ⊢
  rw [List.filterMap_append, h]
  simp

/-- a step that ends the derivation, or one that ends in the nonterminal of the next -/
inductive Chain (R : Rules) : Char → Derivation → List Char → Prop
  | last {s : Step} {u : List Char} (h : R s (word u)) : Chain R s.nonterminal [s] u
  | link {s : Step} {u : List Char} {m : Char} {d : Derivation} {v : List Char}
    (h : R s (word u ++ [.nonterminal m])) (t : Chain R m d v) : Chain R s.nonterminal (s :: d) (u ++ v)

/-- terminals in front of a form are in front of what is derived from it -/
theorem leftmost_word_append_iff {u : List Char} {a : List Symbol} :
    Leftmost R (word u ++ a) d (word w) ↔ ∃ v, w = u ++ v ∧ Leftmost R a d (word v) := by
  induction u generalizing w with
  | nil => simp
  | cons c u ih =>
    rw [word_cons, List.cons_append, leftmost_terminal]
    constructor
    · rintro ⟨b, hb, h⟩
      obtain ⟨e, x, rfl, he, rfl⟩ := word_eq_cons_iff.1 hb
      cases he
      obtain ⟨v, rfl, hv⟩ := ih.1 h
      exact ⟨v, rfl, hv⟩
    · rintro ⟨v, rfl, h⟩
      exact ⟨word (u ++ v), rfl, ih.2 ⟨v, rfl, h⟩⟩

/-- **One nonterminal at a time.** When all rules have the shape, the steps from a nonterminal to a word are a chain. -/
theorem chain_of_leftmost (hR : ∀ s r, R s r → r.WellShaped) (h : Leftmost R [.nonterminal n] d (word w)) :
    Chain R n d w := by
  induction d generalizing n w with
  | nil =>
    obtain ⟨i, r, t, hd, -⟩ := leftmost_nonterminal.1 h
    cases hd
  | cons s d ih =>
    obtain ⟨i, r, t, hd, hr, hrest⟩ := leftmost_nonterminal.1 h
    cases hd
    obtain ⟨u, rfl | ⟨m, rfl⟩⟩ := hR _ r hr
    · -- nothing is left to replace
      obtain ⟨v, rfl, hv⟩ := leftmost_word_append_iff.1 hrest
      obtain ⟨rfl, hempty⟩ := leftmost_empty.1 hv
      obtain rfl : v = [] := List.map_eq_nil_iff.1 hempty
      rw [List.append_nil]
      exact .last hr
    · rw [List.append_nil] at hrest
      obtain ⟨v, rfl, hv⟩ := leftmost_word_append_iff.1 hrest
      exact .link hr (ih hv)

namespace Chain

/-- the first step is for the nonterminal that is replaced -/
theorem exists_cons (h : Chain R n d w) : ∃ s t, d = s :: t ∧ s.nonterminal = n := by
  cases h with
  | last _ => exact ⟨_, _, rfl, rfl⟩
  | link _ _ => exact ⟨_, _, rfl, rfl⟩

/-- a step is for the nonterminal that the step before it leaves -/
theorem isChain (h : Chain R n d w) :
    d.IsChain fun a b => ∃ r, R a r ∧ r.getLast? = some (.nonterminal b.nonterminal) := by
  induction h with
  | last _ => exact .singleton _
  | link h t ih =>
    obtain ⟨b, rest, rfl, rfl⟩ := t.exists_cons
    exact List.isChain_cons_cons.2 ⟨⟨_, h, List.getLast?_concat⟩, ih⟩

variable {g : Grammar}

/-- the last step, and no other, leaves no nonterminal -/
theorem last_step (h : Chain g.Rule n d w) :
    (∃ s u, d.getLast? = some s ∧ g.Rule s (word u)) ∧ ∀ s ∈ d.dropLast, ∀ u, ¬ g.Rule s (word u) := by
  induction h with
  | @last s u h => exact ⟨⟨s, u, rfl, h⟩, by simp⟩
  | @link s u m d v h t ih =>
    obtain ⟨⟨z, y, hz, hy⟩, hrest⟩ := ih
    obtain ⟨b, rest, rfl, rfl⟩ := t.exists_cons
    refine ⟨⟨z, y, by rw [List.getLast?_cons_cons, hz], hy⟩, fun a ha x hx => ?_⟩
    rw [List.dropLast_cons_cons] at ha
    rcases List.mem_cons.1 ha with rfl | ha
    · -- a step has one alternative, and that of this one ends in a nonterminal
      have hsame : word u ++ [.nonterminal b.nonterminal] = word x := Option.some.inj (h.symm.trans hx)
      have hmem : Symbol.nonterminal b.nonterminal ∈ word x := by simp [← hsame]
      simp [word] at hmem
    · exact hrest a ha x hx

/-- the word is the terminals of the steps one after the other -/
theorem word_eq (h : Chain g.Rule n d w) : w = d.flatMap fun s => ((g.alternative? s).getD []).terminals := by
  induction h with
  | @last s u h =>
    have hr : g.alternative? s = some (word u) := h
    simp [hr, terminals_word]
  | @link s u m d v h t ih =>
    have hr : g.alternative? s = some (word u ++ [.nonterminal m]) := h
    rw [List.flatMap_cons, hr, Option.getD_some, terminals_word_append_nonterminal, ← ih]

end Chain

end SimpleGrammar
