/-
The recognizer takes linear time.

An expansion reads nothing and makes the stack longer, so neither the stack nor the input left over shows that a run
ends. What does is that an expansion puts the next character on top (`Ready`): the round after it reads that
character. So there are at most two rounds for a character, and one more in which the run is rejected, and no two
expansions happen at one position.

- `Transcript.rounds_le`: the bound, which is lower by one when the next character is on top.
- `Transcript.pairwise_position`: the positions of the expansions increase.
- `Transcript.of_ok`: the rounds and the expansions of a run that accepts.
- `rounds_and_expansions_of_derive`: all of it for runs from a start symbol, with the events that go with them.
-/
import SimpleGrammar.Journal
import SimpleGrammar.Proofs.Recognition.Language
import SimpleGrammar.Proofs.Recognition.Trail

namespace SimpleGrammar

variable {g : Grammar} {k k' : Config} {ks : List Config} {s : Step} {r : Rhs} {result : Except Rejection Derivation}
  {w : List Char} {start : Char}

/-! ## Rounds -/

/-- the rounds in which the configurations are visited: one for each that expects a symbol -/
def rounds (ks : List Config) : Nat := ks.countP fun k => k.stack ≠ []

theorem rounds_singleton_le (k : Config) : rounds [k] ≤ 1 := List.countP_le_length

theorem rounds_singleton_of_stack (h : k.stack = []) : rounds [k] = 0 := by
  simp [rounds, h]

theorem rounds_cons_of_stack (h : k.stack ≠ []) : rounds (k :: ks) = rounds ks + 1 :=
  List.countP_cons_of_pos (by simpa using h)

/-- the symbol expected next is the next character -/
def Config.Ready (k : Config) : Prop := ∃ c, k.stack.head? = some (.terminal c) ∧ k.rest.head? = some c

theorem ready_of_expand (h : k.move g = .expand s r k') : k'.Ready := by
  obtain ⟨n, c, i, below, rest, -, hrest, hsel, -, hstack', hrest', -⟩ := expand_cases h
  obtain ⟨tail, rfl⟩ := List.head?_eq_some_iff.1 (head?_of_select hsel)
  exact ⟨c, by rw [hstack']; rfl, by rw [hrest', hrest]; rfl⟩

theorem not_ready_of_expand (h : k.move g = .expand s r k') : ¬ k.Ready := by
  obtain ⟨n, c, i, below, rest, hstack, -⟩ := expand_cases h
  rintro ⟨t, ht, -⟩
  rw [hstack] at ht
  cases ht

theorem not_ready_of_reject {e : Rejection} (h : k.move g = .reject e) : ¬ k.Ready := by
  obtain ⟨stack, rest, p⟩ := k
  rintro ⟨c, hstack, hrest⟩
  obtain ⟨below, rfl⟩ := List.head?_eq_some_iff.1 hstack
  obtain ⟨rest, rfl⟩ := List.head?_eq_some_iff.1 hrest
  simp [Config.move] at h

/-- **The bound.** Two rounds for each character left and one more; only the two if the next character is on top. -/
theorem Transcript.rounds_le (t : Transcript g k ks result) :
    rounds ks ≤ 2 * k.rest.length + 1 ∧ (k.Ready → rounds ks ≤ 2 * k.rest.length) := by
  induction t with
  | accept h =>
    rw [rounds_singleton_of_stack (stack_of_accept h).1]
    exact ⟨Nat.zero_le _, fun _ => Nat.zero_le _⟩
  | @reject k _ h =>
    have hone := rounds_singleton_le k
    exact ⟨by omega, fun hready => absurd hready (not_ready_of_reject h)⟩
  | advance h _ ih =>
    obtain ⟨c, hstack, hrest, -⟩ := advance_cases h
    have hlater := ih.1
    rw [rounds_cons_of_stack (by simp [hstack]), hrest, List.length_cons]
    exact ⟨by omega, fun _ => by omega⟩
  | expand h _ ih =>
    have hlater := ih.2 (ready_of_expand h)
    obtain ⟨n, c, i, below, rest, hstack, -, -, -, -, hrest', -⟩ := expand_cases h
    rw [hrest'] at hlater
    rw [rounds_cons_of_stack (by simp [hstack])]
    exact ⟨by omega, fun hready => absurd hready (not_ready_of_expand h)⟩

/-! ## Expansions -/

/-- what is expanded in a run is expanded where it begins or later, and later if the next character is on top -/
theorem Transcript.position_le (t : Transcript g k ks result) :
    ∀ e ∈ ks.filterMap (·.expansion? g), k.position ≤ e.position ∧ (k.Ready → k.position < e.position) := by
  induction t with
  | accept h => simp [expansion?_of_accept h]
  | reject h => simp [expansion?_of_reject h]
  | advance h _ ih =>
    rw [List.filterMap_cons_none (expansion?_of_advance h)]
    obtain ⟨c, -, -, hposition⟩ := advance_cases h
    intro e he
    have hlater := (ih e he).1
    exact ⟨by omega, fun _ => by omega⟩
  | expand h _ ih =>
    rw [List.filterMap_cons_some (expansion?_of_expand h)]
    obtain ⟨n, c, i, below, rest, -, -, -, -, -, -, hposition⟩ := expand_cases h
    intro e he
    refine ⟨?_, fun hready => absurd hready (not_ready_of_expand h)⟩
    rcases List.mem_cons.1 he with rfl | he
    · exact Nat.le_refl _
    · rw [← hposition]
      exact (ih e he).1

/-- **One expansion at a position.** The positions at which a run expands increase. -/
theorem Transcript.pairwise_position (t : Transcript g k ks result) :
    (ks.filterMap (·.expansion? g)).Pairwise (·.position < ·.position) := by
  induction t with
  | accept h => simp [expansion?_of_accept h]
  | reject h => simp [expansion?_of_reject h]
  | advance h _ ih =>
    rw [List.filterMap_cons_none (expansion?_of_advance h)]
    exact ih
  | expand h t ih =>
    rw [List.filterMap_cons_some (expansion?_of_expand h)]
    obtain ⟨n, c, i, below, rest, -, -, -, -, -, -, hposition⟩ := expand_cases h
    refine List.pairwise_cons.2 ⟨fun e he => ?_, ih⟩
    rw [← hposition]
    exact (t.position_le e he).2 (ready_of_expand h)

/-- **Runs that accept.** There is a round for each character and for each step, and the expansions are the steps. -/
theorem Transcript.of_ok (t : Transcript g k ks result) :
    ∀ d, result = .ok d → rounds ks = k.rest.length + d.length ∧
      (ks.filterMap (·.expansion? g)).map (fun e => (e.nonterminal, some e.rhs)) =
        d.map fun step => (step.nonterminal, g.alternative? step) := by
  induction t with
  | accept h =>
    intro d hd
    cases hd
    obtain ⟨hstack, hrest⟩ := stack_of_accept h
    rw [rounds_singleton_of_stack hstack, hrest]
    simp [expansion?_of_accept h]
  | reject h =>
    intro d hd
    cases hd
  | advance h _ ih =>
    intro d hd
    obtain ⟨c, hstack, hrest, -⟩ := advance_cases h
    obtain ⟨hrounds, hsteps⟩ := ih d hd
    rw [List.filterMap_cons_none (expansion?_of_advance h), rounds_cons_of_stack (by simp [hstack]), hrest,
      List.length_cons]
    exact ⟨by omega, hsteps⟩
  | expand h _ ih =>
    intro d hd
    obtain ⟨n, c, i, below, rest, hstack, -, hsel, rfl, -, hrest', -⟩ := expand_cases h
    obtain ⟨d, hrun, rfl⟩ := Outcome.map_eq_ok_iff.1 hd
    obtain ⟨hrounds, hsteps⟩ := ih d hrun
    have hrule : g.alternative? ⟨n, i⟩ = some _ := (leadingRule_iff_select.2 hsel).1.1
    rw [hrest'] at hrounds
    rw [List.filterMap_cons_some (expansion?_of_expand h), rounds_cons_of_stack (by simp [hstack]), List.map_cons,
      List.map_cons, hsteps, hrule, List.length_cons]
    exact ⟨by omega, rfl⟩

/-! ## Runs from a start symbol -/

/-- what is left of the input is what follows the position -/
theorem rest_eq_drop (hk : k ∈ trail g (.initial start w)) : k.rest = w.drop k.position := by
  have hadvance : ∀ (_ : Option Expansion) (k k' : Config), k.move g = .advance k' → k.rest = w.drop k.position →
      k'.rest = w.drop k'.position := by
    intro _ k k' h hrest
    obtain ⟨c, -, hc, hposition⟩ := advance_cases h
    rw [hposition, ← List.tail_drop, ← hrest, hc, List.tail_cons]
  have hexpand : ∀ (_ : Option Expansion) (k : Config) (s : Step) (r : Rhs) (k' : Config), k.move g = .expand s r k' →
      k.rest = w.drop k.position → k'.rest = w.drop k'.position := by
    intro _ k s r k' h hrest
    obtain ⟨n, c, i, below, rest, -, -, -, -, -, hrest', hposition⟩ := expand_cases h
    rw [hposition, ← hrest, hrest']
  obtain ⟨before, after, hks⟩ := List.append_of_mem hk
  exact (transcript_trail g _).invariant hadvance hexpand none rfl before k after hks

/-- what is expanded is replaced by an alternative that begins with the character at the position -/
theorem expansion_at_position {e : Expansion} (he : e ∈ g.expansions w start) :
    ∃ (h : e.position < w.length) (alts : Alternatives), g.alternatives? e.nonterminal = some alts ∧ e.rhs ∈ alts ∧
      e.rhs.head? = some (.terminal w[e.position]) := by
  obtain ⟨k, hk, hke⟩ := List.mem_filterMap.1 he
  obtain ⟨s, r, k', hmove, rfl⟩ := exists_expand_of_expansion? hke
  obtain ⟨n, c, i, below, rest, -, hrest, hsel, rfl, -⟩ := expand_cases hmove
  obtain ⟨⟨hrule, -⟩, hhead⟩ := leadingRule_iff_select.2 hsel
  obtain ⟨alts, halts, hr⟩ := Grammar.rule_iff.1 hrule
  have hc : w[k.position]? = some c := by
    rw [← List.head?_drop, ← rest_eq_drop hk, hrest, List.head?_cons]
  obtain ⟨hlt, hat⟩ := List.getElem?_eq_some_iff.1 hc
  exact ⟨hlt, alts, halts, List.mem_of_getElem? hr, by rw [hat]; exact hhead⟩

/-- **Linear time.** The trail of a run goes from the start symbol and the whole input by moves to the result. The run
goes round at most twice for each character and once more. Its expansions, whether it accepts or not, happen at
positions that increase and lie in the input, each to an alternative of the nonterminal that begins with the character
there. If it accepts, they are the steps of the derivation in order, and it goes round once for each character and
each step. The events of the run at trace level are the expansions. -/
theorem rounds_and_expansions_of_derive (g : Grammar) (w : List Char) (start : Char) :
    Transcript g (.initial start w) (trail g (.initial start w)) (g.derive w start) ∧
    rounds (trail g (.initial start w)) ≤ 2 * w.length + 1 ∧
    (g.expansions w start).Pairwise (·.position < ·.position) ∧
    (∀ e ∈ g.expansions w start, ∃ (h : e.position < w.length) (alts : Alternatives),
      g.alternatives? e.nonterminal = some alts ∧ e.rhs ∈ alts ∧ e.rhs.head? = some (.terminal w[e.position])) ∧
    (∀ d, g.derive w start = .ok d →
      rounds (trail g (.initial start w)) = w.length + d.length ∧
      (g.expansions w start).map (fun e => (e.nonterminal, some e.rhs)) =
        d.map (fun step => (step.nonterminal, g.alternative? step)) ∧
      (g.expansions w start).map (fun e => (e.nonterminal, some e.rhs.display)) =
        d.map (fun step => (step.nonterminal, (g.alternative? step).map Rhs.display))) ∧
    Journal.ofDerivation g w start = (g.expansions w start).map .expanded ∧
    ∀ e ∈ Journal.ofDerivation g w start, e.level = .trace ∧ e.message = "expand" := by
  have t := transcript_trail g (.initial start w)
  refine ⟨t, t.rounds_le.1, t.pairwise_position, fun e he => expansion_at_position he, fun d hd => ?_, rfl, ?_⟩
  · obtain ⟨hrounds, hsteps⟩ := t.of_ok d hd
    refine ⟨hrounds, hsteps, ?_⟩
    have hdisplay := congrArg (List.map (Prod.map id (Option.map Rhs.display))) hsteps
    rw [List.map_map, List.map_map] at hdisplay
    exact hdisplay
  · intro e he
    obtain ⟨x, -, rfl⟩ := List.mem_map.1 he
    exact ⟨rfl, rfl⟩

/-- `aab` is accepted in a round for each of three characters and three steps; for `aa` the run goes round five times,
which is the most for two characters -/
theorem rounds_rightLinear :
    rightLinear.derive ['a', 'a', 'b'] 'S' = .ok [⟨'S', 0⟩, ⟨'B', 0⟩, ⟨'B', 1⟩] ∧
      rounds (trail rightLinear (.initial 'S' ['a', 'a', 'b'])) = 6 ∧
      rounds (trail rightLinear (.initial 'S' ['a', 'a'])) = 5 ∧
      rounds (trail rightLinear (.initial 'S' ['a', 'a'])) ≤ 2 * 2 + 1 := by
  have hrun : rightLinear.derive ['a', 'a', 'b'] 'S' = .ok [⟨'S', 0⟩, ⟨'B', 0⟩, ⟨'B', 1⟩] := by cbv
  have hmost : rounds (trail rightLinear (.initial 'S' ['a', 'a'])) = 5 := by cbv
  obtain ⟨-, -, -, -, hok, -⟩ := rounds_and_expansions_of_derive rightLinear ['a', 'a', 'b'] 'S'
  exact ⟨hrun, (hok _ hrun).1, hmost, (rounds_and_expansions_of_derive rightLinear ['a', 'a'] 'S').2.1⟩

end SimpleGrammar
