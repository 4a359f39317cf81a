/-
Rejections come as early as they can.

The recognizer reads on as long as what it has read begins some sentence. For this every expected symbol must be able
to become a word (`Productive`): then whatever the stack holds can be completed, and a run that ends with symbols
expected has read the beginning of a sentence. That it cannot be wrong to stop needs no such condition, since what is
read up to a rejection already decides it.

- `exists_completion`: an input that ends too early can be completed, from any stack of productive symbols.
- `derive_error_of_isPrefix`: a rejection at a position is the rejection of all inputs that are the same up to there.
- `exhausted_and_rejected_iff_isPrefix`: both for runs from a start symbol.
-/
import SimpleGrammar.Proofs.Recognition.Language
import SimpleGrammar.Proofs.Recognition.Prefix

namespace SimpleGrammar

variable {g : Grammar} {start : Char} {u v w : List Char} {r : Rejection} {p : Nat}

/-- some word is derived from the symbol -/
def Productive (R : Rules) (x : Symbol) : Prop := ∃ w, Derives R [x] (word w)

theorem productive_terminal {R : Rules} (c : Char) : Productive R (.terminal c) := ⟨[c], .refl⟩

/-- from productive symbols side by side a word is derived -/
theorem exists_yields_of_productive {R : Rules} {a : List Symbol} (ha : ∀ x ∈ a, Productive R x) :
    ∃ w, Yields R a w := by
  induction a with
  | nil => exact ⟨[], .nil⟩
  | cons x a ih =>
    obtain ⟨⟨u, hu⟩, ha⟩ := List.forall_mem_cons.1 ha
    obtain ⟨v, hv⟩ := ih ha
    exact ⟨u ++ v, (derives_iff_yields.1 hu).append hv⟩

/-- the sentences by leading rules are the inputs that are accepted -/
theorem exists_derive_ok_iff_derives :
    (∃ d, g.derive w start = .ok d) ↔ Derives g.LeadingRule [.ofChar start] (word w) := by
  rw [derives_iff_yields, ← exists_leftmost_iff_yields]
  exact exists_congr fun d => runFrom_ok_iff_leftmost

/-! ## Completing an input -/

/-- **Completion.** When the input ends and symbols are expected that are productive, as are those in leading rules,
there is more input with which the run accepts. -/
theorem exists_completion
    (hrules : ∀ s q, g.LeadingRule s q → ∀ n, .nonterminal n ∈ q → Productive g.LeadingRule (.nonterminal n))
    {stack : List Symbol} {x : Symbol} (hstack : ∀ y ∈ stack, Productive g.LeadingRule y)
    (h : runFrom g ⟨stack, w, p⟩ = .error (.inputExhausted x)) :
    ∃ v d, v ≠ [] ∧ Leftmost g.LeadingRule stack d (word (w ++ v)) := by
  induction w generalizing stack p with
  | nil =>
    cases stack with
    | nil => simp at h
    | cons top below =>
      obtain ⟨v, hv⟩ := exists_yields_of_productive hstack
      obtain ⟨d, hd⟩ := exists_leftmost_of_yields hv
      refine ⟨v, d, ?_, hd⟩
      rintro rfl
      exact not_leftmost_leadingRule_nil hd
  | cons c w ih =>
    rcases stack with _ | ⟨t | n, below⟩
    · simp at h
    · obtain ⟨-, hbelow⟩ := List.forall_mem_cons.1 hstack
      rw [runFrom_terminal] at h
      split at h
      · next htc =>
        subst htc
        obtain ⟨v, d, hv, hd⟩ := ih hbelow h
        exact ⟨v, d, hv, leftmost_terminal.2 ⟨_, rfl, hd⟩⟩
      · simp at h
    · obtain ⟨-, hbelow⟩ := List.forall_mem_cons.1 hstack
      rw [runFrom_nonterminal] at h
      split at h
      · simp at h
      · next q i hsel =>
        obtain ⟨hrule, -⟩ := leadingRule_iff_select.2 hsel
        -- the alternative brings productive symbols onto the stack
        have hall : ∀ y ∈ q.tail ++ below, Productive g.LeadingRule y := by
          intro y hy
          rcases List.mem_append.1 hy with hy | hy
          · cases y with
            | terminal e => exact productive_terminal e
            | nonterminal m => exact hrules _ q hrule m (List.mem_of_mem_tail hy)
          · exact hbelow y hy
        obtain ⟨v, d, hv, hd⟩ := ih hall (Outcome.map_eq_error_iff.1 h)
        exact ⟨v, ⟨n, i⟩ :: d, hv, leftmost_leadingRule_nonterminal.2 ⟨q, i, d, hsel, rfl, hd⟩⟩

/-- what begins a sentence and is not all of it is read to its end, with symbols expected -/
theorem exhausted_of_derive_append (hv : v ≠ []) {d : Derivation} (h : g.derive (w ++ v) start = .ok d) :
    ∃ x, g.derive w start = .error (.inputExhausted x) := by
  rcases derive_rejected_or_expects g w start with ⟨r, q, -, -, hrun⟩ | ⟨rest, hrest⟩
  · rw [hrun v] at h
    cases h
  · rcases derive_of_expects hrest with ⟨-, rfl⟩ | ⟨x, hx, -⟩
    · -- nothing more is expected, so what follows would be left over
      obtain ⟨c, v, rfl⟩ := List.exists_cons_of_ne_nil hv
      have hleft : g.derive (w ++ c :: v) start = .error (.trailingInput w.length) :=
        (derive_append_error_iff hrest).2 (runFrom_nil_cons g _ c v)
      rw [h] at hleft
      cases hleft
    · exact ⟨x, hx⟩

/-! ## Rejections -/

/-- **What is read decides.** A rejection at a position is that of every input with the same characters up to there. -/
theorem derive_error_of_isPrefix (h : g.derive w start = .error r) (hr : r.position? = some p)
    (hv : w.take (p + 1) <+: v) : g.derive v start = .error r := by
  obtain ⟨v, rfl⟩ := hv
  rcases derive_rejected_or_expects g (w.take (p + 1)) start with ⟨r', q, -, -, hrun⟩ | ⟨rest, hrest⟩
  · have hw := hrun (w.drop (p + 1))
    rw [List.take_append_drop, h] at hw
    cases hw
    exact hrun v
  · -- a run that reads the character at the position is not rejected there
    have hlt := (position?_bounds h hr).2
    have hlater : runFrom g ⟨rest, w.drop (p + 1), (w.take (p + 1)).length⟩ = .error r := by
      rw [← derive_append_error_iff hrest, List.take_append_drop]
      exact h
    have hbound := (position?_bounds hlater hr).1
    rw [List.length_take] at hbound
    omega

/-- before a rejection that is not of input left over, symbols are expected -/
theorem exhausted_of_rejected (h : g.derive w start = .error r) (hr : r.position? = some p)
    (hne : r ≠ .trailingInput p) : ∃ x, g.derive (w.take p) start = .error (.inputExhausted x) := by
  obtain ⟨c, rest, -, hrest, hmove⟩ := (derive_error_at_iff hr).1 h
  cases rest with
  | nil =>
    simp only [Config.move, Move.reject.injEq] at hmove
    exact absurd hmove.symm hne
  | cons x below => exact ⟨x, derive_exhausted_iff_expects.2 ⟨x :: below, hrest, rfl⟩⟩

/-! ## Prefixes of sentences -/

/-- **Rejections are neither early nor late.** Let the start symbol and every nonterminal in a leading rule derive a
word by leading rules. Then an input ends too early exactly when it is a proper prefix of a sentence. When a character
is rejected, for want of a rule or because another terminal is expected, what is before it is a proper prefix of a
sentence, and together with the character it is a prefix of none. -/
theorem exhausted_and_rejected_iff_isPrefix (g : Grammar) (start : Char)
    (hstart : Productive g.LeadingRule (.ofChar start))
    (hrules : ∀ s q, g.LeadingRule s q → ∀ n, .nonterminal n ∈ q → Productive g.LeadingRule (.nonterminal n))
    (w : List Char) :
    ((∃ x, g.derive w start = .error (.inputExhausted x)) ↔
      ∃ v, Derives g.LeadingRule [.ofChar start] (word v) ∧ w <+: v ∧ w ≠ v) ∧
    ∀ p, ((∃ n c, g.derive w start = .error (.noApplicableRule n c p)) ∨
        ∃ e f, g.derive w start = .error (.terminalMismatch e f p)) →
      p < w.length ∧
      (∃ v, Derives g.LeadingRule [.ofChar start] (word v) ∧ w.take p <+: v ∧ w.take p ≠ v) ∧
      ∀ v, Derives g.LeadingRule [.ofChar start] (word v) → ¬ w.take (p + 1) <+: v := by
  have hexhausted : ∀ u, (∃ x, g.derive u start = .error (.inputExhausted x)) ↔
      ∃ v, Derives g.LeadingRule [.ofChar start] (word v) ∧ u <+: v ∧ u ≠ v := by
    intro u
    constructor
    · rintro ⟨x, hx⟩
      have hstack : ∀ y ∈ [Symbol.ofChar start], Productive g.LeadingRule y := by simpa using hstart
      obtain ⟨v, d, hv, hd⟩ := exists_completion hrules hstack hx
      exact ⟨u ++ v, exists_derive_ok_iff_derives.1 ⟨d, runFrom_ok_iff_leftmost.2 hd⟩, List.prefix_append u v,
        by simpa using hv⟩
    · rintro ⟨_, hv, ⟨v, rfl⟩, hne⟩
      obtain ⟨d, hd⟩ := exists_derive_ok_iff_derives.2 hv
      exact exhausted_of_derive_append (by simpa using hne) hd
  refine ⟨hexhausted w, fun p h => ?_⟩
  obtain ⟨r, hr, hposition, hne⟩ :
      ∃ r, g.derive w start = .error r ∧ r.position? = some p ∧ r ≠ .trailingInput p := by
    rcases h with ⟨n, c, h⟩ | ⟨e, f, h⟩
    · exact ⟨_, h, rfl, by simp⟩
    · exact ⟨_, h, rfl, by simp⟩
  have hlt := (position?_bounds hr hposition).2
  refine ⟨by omega, (hexhausted _).1 (exhausted_of_rejected hr hposition hne), fun v hv hbegins => ?_⟩
  -- a sentence that goes on like this would be rejected at the position as well
  obtain ⟨d, hd⟩ := exists_derive_ok_iff_derives.2 hv
  rw [derive_error_of_isPrefix hr hposition hbegins] at hd
  cases hd

/-- in `S -> aB | c` and `B -> aB | b` every nonterminal derives a word; `aa` ends too early, and in `ac` the `c` is
rejected, since some sentence begins with `a` and none with `ac` -/
theorem isPrefix_rightLinear :
    (∃ v, Derives rightLinear.LeadingRule [.ofChar 'S'] (word v) ∧ ['a', 'a'] <+: v ∧ ['a', 'a'] ≠ v) ∧
      rightLinear.derive ['a', 'c'] 'S' = .error (.noApplicableRule 'B' 'c' 1) ∧
      (∃ v, Derives rightLinear.LeadingRule [.ofChar 'S'] (word v) ∧ ['a'] <+: v ∧ ['a'] ≠ v) ∧
      ∀ v, Derives rightLinear.LeadingRule [.ofChar 'S'] (word v) → ¬ ['a', 'c'] <+: v := by
  have hS : Productive rightLinear.LeadingRule (.ofChar 'S') :=
    ⟨['c'], exists_derive_ok_iff_derives.1 ⟨[⟨'S', 1⟩], by cbv⟩⟩
  have hB : Productive rightLinear.LeadingRule (.ofChar 'B') :=
    ⟨['b'], exists_derive_ok_iff_derives.1 ⟨[⟨'B', 1⟩], by cbv⟩⟩
  have hrules : ∀ s q, rightLinear.LeadingRule s q → ∀ n, .nonterminal n ∈ q →
      Productive rightLinear.LeadingRule (.nonterminal n) := by
    intro s q hq n hn
    have honly : ∀ e ∈ rightLinear.rules.entries, ∀ r ∈ e.2, ∀ x ∈ r, x.isNonterminal = true → x = .ofChar 'B' := by
      decide
    obtain ⟨alts, halts, hi⟩ := Grammar.rule_iff.1 hq.1
    rw [honly _ (CharMap.mem_entries_iff.2 halts) q (List.mem_of_getElem? hi) _ hn rfl]
    exact hB
  have hrun : rightLinear.derive ['a', 'c'] 'S' = .error (.noApplicableRule 'B' 'c' 1) := by cbv
  have hshort : rightLinear.derive ['a', 'a'] 'S' = .error (.inputExhausted (.nonterminal 'B')) := by cbv
  obtain ⟨hexhausted, -⟩ := exhausted_and_rejected_iff_isPrefix rightLinear 'S' hS hrules ['a', 'a']
  obtain ⟨-, hrejected⟩ := exhausted_and_rejected_iff_isPrefix rightLinear 'S' hS hrules ['a', 'c']
  exact ⟨hexhausted.1 ⟨_, hshort⟩, hrun, (hrejected 1 (.inl ⟨_, _, hrun⟩)).2⟩

end SimpleGrammar
