/-
The stack of a simple grammar.

An alternative of a simple grammar has its one nonterminal at the end. So when a nonterminal is on top nothing is
below it, and what replaces it is the whole stack: the recognizer needs no stack but a place in the alternative
expanded last. With one nonterminal expected at a time the derivation is a chain.

- `WellShaped.of_suffix`, `WellShaped.eq_nil_of_nonterminal`: the shape of what is left of an alternative.
- `awaits_trail`: the stack is the end of the alternative expanded last, or of the start symbol before that.
- `stack_and_chain_of_isSimple`: what this says of the stack in every round, and of the derivation.
-/
import SimpleGrammar.Proofs.Derivation.Chain
import SimpleGrammar.Proofs.Grammar.Largest
import SimpleGrammar.Proofs.Recognition.Language
import SimpleGrammar.Proofs.Recognition.Trail

namespace SimpleGrammar

variable {g : Grammar} {k : Config} {r q : Rhs} {n start : Char} {w : List Char}

/-! ## The end of an alternative -/

theorem Rhs.WellShaped.of_suffix (hr : r.WellShaped) (hq : q <:+ r) : q.WellShaped := by
  obtain ⟨a, rfl⟩ := hq
  obtain ⟨u, h | ⟨m, h⟩⟩ := hr
  · obtain ⟨x, y, rfl, -, rfl⟩ := List.map_eq_append_iff.1 h.symm
    exact ⟨y, .inl rfl⟩
  · rcases List.eq_nil_or_concat q with rfl | ⟨init, z, hz⟩
    · exact ⟨[], .inl rfl⟩
    · rw [List.concat_eq_append] at hz
      subst hz
      rw [← List.append_assoc] at h
      obtain ⟨hinit, hz⟩ := List.append_inj' h rfl
      obtain ⟨x, y, rfl, -, rfl⟩ := List.map_eq_append_iff.1 hinit.symm
      exact ⟨y, .inr ⟨m, by rw [hz]; rfl⟩⟩

/-- a nonterminal on top is alone -/
theorem Rhs.WellShaped.eq_nil_of_nonterminal {below : List Symbol}
    (h : Rhs.WellShaped (.nonterminal n :: below)) : below = [] := by
  obtain ⟨u, h | ⟨m, h⟩⟩ := h
  · obtain ⟨c, v, -, hc, -⟩ := word_eq_cons_iff.1 h.symm
    cases hc
  · cases u with
    | nil => exact (List.cons.inj h).2
    | cons c u => simp at h

theorem wellShaped_singleton (x : Symbol) : Rhs.WellShaped [x] := by
  cases x with
  | terminal c => exact ⟨[c], .inl rfl⟩
  | nonterminal m => exact ⟨[], .inr ⟨m, rfl⟩⟩

theorem wellShaped_of_rule (hg : g.isSimple = true) {s : Step} (hr : g.Rule s r) : r.WellShaped := by
  obtain ⟨alts, halts, hi⟩ := Grammar.rule_iff.1 hr
  exact (isSimple_iff.1 hg _ alts halts).shape r (List.mem_of_getElem? hi)

/-! ## The stack in every round -/

/-- what was expected when the last expansion was made: its alternative, or the start symbol if there was none -/
def awaited (start : Char) (last : Option Expansion) : Rhs := last.elim [.ofChar start] Expansion.rhs

/-- the stack is the end of what was expected then, which has the shape and is the start symbol or an alternative -/
structure Awaits (g : Grammar) (start : Char) (last : Option Expansion) (k : Config) : Prop where
  stack : k.stack <:+ awaited start last
  shape : (awaited start last).WellShaped
  alternative : ∀ e, last = some e → g.Alternative e.rhs

theorem awaits_initial : Awaits g start none (.initial start w) :=
  ⟨List.suffix_refl _, wellShaped_singleton _, by simp⟩

theorem awaits_of_advance {last : Option Expansion} {k' : Config} (h : k.move g = .advance k')
    (hk : Awaits g start last k) : Awaits g start last k' := by
  obtain ⟨c, hstack, -⟩ := advance_cases h
  have hsuffix : k'.stack <:+ k.stack := hstack ▸ List.suffix_cons _ _
  exact ⟨hsuffix.trans hk.stack, hk.shape, hk.alternative⟩

theorem awaits_of_expand (hg : g.isSimple = true) {last : Option Expansion} {s : Step} {k' : Config}
    (h : k.move g = .expand s r k') (hk : Awaits g start last k) :
    Awaits g start (some ⟨s.nonterminal, r, k.position⟩) k' := by
  obtain ⟨n, c, i, below, rest, hstack, -, hsel, rfl, hstack', -⟩ := expand_cases h
  have hrule : g.Rule ⟨n, i⟩ r := (leadingRule_iff_select.2 hsel).1.1
  have hbelow : below = [] := by
    have hshape := hk.shape.of_suffix hk.stack
    rw [hstack] at hshape
    exact hshape.eq_nil_of_nonterminal
  obtain ⟨alts, halts, hi⟩ := Grammar.rule_iff.1 hrule
  refine ⟨?_, wellShaped_of_rule hg hrule, ?_⟩
  · rw [hstack', hbelow, List.append_nil]
    exact List.suffix_refl _
  · rintro e ⟨⟩
    exact ⟨n, alts, halts, List.mem_of_getElem? hi⟩

/-- **The stack is the end of one alternative.** -/
theorem awaits_trail (hg : g.isSimple = true) {before after : List Config}
    (hk : trail g (.initial start w) = before ++ k :: after) : Awaits g start (lastExpansion? g before) k := by
  have hinv := (transcript_trail g (.initial start w)).invariant (P := Awaits g start)
    (fun _ _ _ h => awaits_of_advance h) (fun _ _ _ _ _ h => awaits_of_expand hg h)
    none awaits_initial before k after hk
  rwa [Option.or_none] at hinv

theorem Awaits.start_or_suffix {last : Option Expansion} (h : Awaits g start last k) (hne : k.stack ≠ []) :
    last = none ∧ k.stack = [.ofChar start] ∨ ∃ e, last = some e ∧ k.stack <:+ e.rhs := by
  have hstack := h.stack
  cases last with
  | none =>
    rcases List.suffix_cons_iff.1 hstack with hall | hnil
    · exact .inl ⟨rfl, hall⟩
    · exact absurd (List.suffix_nil.1 hnil) hne
  | some e => exact .inr ⟨e, rfl, hstack⟩

theorem Awaits.length_le {last : Option Expansion} (h : Awaits g start last k) :
    k.stack.length ≤ max 1 (g.largest List.length) := by
  have hlength := h.stack.length_le
  cases last with
  | none => exact hlength.trans (Nat.le_max_left 1 _)
  | some e => exact (hlength.trans (Grammar.size_le_largest (h.alternative e rfl))).trans (Nat.le_max_right 1 _)

/-! ## Stack and derivation -/

/-- a derivation from a nonterminal is a chain -/
theorem chain_of_derive (hg : g.isSimple = true) (hs : Text.isUppercase start = true) {d : Derivation}
    (hd : g.derive w start = .ok d) : Chain g.Rule start d w := by
  have hleftmost : Leftmost g.LeadingRule [.ofChar start] d (word w) := runFrom_ok_iff_leftmost.1 hd
  rw [Symbol.ofChar, if_pos hs] at hleftmost
  exact chain_of_leftmost (fun _ _ hr => wellShaped_of_rule hg hr) (hleftmost.mono fun _ _ hr => hr.1)

/-- **One alternative at a time.** In every round of a run on a simple grammar the stack is the start symbol alone, as
long as nothing is expanded, and then the end of the alternative expanded last. So it is terminals with at most one
nonterminal at the bottom, and not longer than the longest alternative or a single symbol. The derivation of an
accepted input from an uppercase start symbol is a chain: it begins with a step for the start symbol, each later step
is for the nonterminal that the alternative before it ends in, the last alternative and no other is all terminals, and
the input is the terminals of the alternatives in order. -/
theorem stack_and_chain_of_isSimple (g : Grammar) (hg : g.isSimple = true) (w : List Char) (start : Char) :
    (∀ (before : List Config) (k : Config) (after : List Config),
      trail g (.initial start w) = before ++ k :: after → k.stack ≠ [] →
      (lastExpansion? g before = none ∧ k.stack = [.ofChar start] ∨
        ∃ e, lastExpansion? g before = some e ∧ k.stack <:+ e.rhs) ∧
      (∃ u, k.stack = word u ∨ ∃ n, k.stack = word u ++ [.nonterminal n]) ∧
      k.stack.length ≤ max 1 (g.largest List.length)) ∧
    (Text.isUppercase start = true → ∀ d : Derivation, g.derive w start = .ok d →
      (∃ (s : Step) (t : Derivation), d = s :: t ∧ s.nonterminal = start) ∧
      (d.IsChain fun a b => ∃ r, g.Rule a r ∧ r.getLast? = some (.nonterminal b.nonterminal)) ∧
      ((∃ s u, d.getLast? = some s ∧ g.Rule s (word u)) ∧ ∀ s ∈ d.dropLast, ∀ u, ¬ g.Rule s (word u)) ∧
      w = d.flatMap fun s => ((g.alternative? s).getD []).terminals) := by
  refine ⟨fun before k after hk hne => ?_, fun hs d hd => ?_⟩
  · have hawaits := awaits_trail hg hk
    exact ⟨hawaits.start_or_suffix hne, hawaits.shape.of_suffix hawaits.stack, hawaits.length_le⟩
  · have hchain := chain_of_derive hg hs hd
    exact ⟨hchain.exists_cons, hchain.isChain, hchain.last_step, hchain.word_eq⟩

/-- `aab` is the terminals of three alternatives one after the other, and the third stack of the run is the end of the
alternative `aB` -/
theorem stack_and_chain_rightLinear :
    rightLinear.isSimple = true ∧ Text.isUppercase 'S' = true ∧
      rightLinear.derive ['a', 'a', 'b'] 'S' = .ok [⟨'S', 0⟩, ⟨'B', 0⟩, ⟨'B', 1⟩] ∧
      (∃ (before : List Config) (k : Config) (after : List Config),
        trail rightLinear (.initial 'S' ['a', 'a', 'b']) = before ++ k :: after ∧
        lastExpansion? rightLinear before = some ⟨'S', [.terminal 'a', .nonterminal 'B'], 0⟩ ∧
        k.stack = [.nonterminal 'B'] ∧ k.stack.length ≤ max 1 (rightLinear.largest List.length)) ∧
      ['a', 'a', 'b'] = [⟨'S', 0⟩, ⟨'B', 0⟩, ⟨'B', 1⟩].flatMap fun s =>
        ((rightLinear.alternative? s).getD []).terminals := by
  have hsimple : rightLinear.isSimple = true := by decide
  have hstart : Text.isUppercase 'S' = true := by decide
  have hrun : rightLinear.derive ['a', 'a', 'b'] 'S' = .ok [⟨'S', 0⟩, ⟨'B', 0⟩, ⟨'B', 1⟩] := by cbv
  obtain ⟨hstack, hchain⟩ := stack_and_chain_of_isSimple rightLinear hsimple ['a', 'a', 'b'] 'S'
  have htrail : ∃ before after, trail rightLinear (.initial 'S' ['a', 'a', 'b']) =
      before ++ ⟨[.nonterminal 'B'], ['a', 'b'], 1⟩ :: after ∧
      lastExpansion? rightLinear before = some ⟨'S', [.terminal 'a', .nonterminal 'B'], 0⟩ := by
    refine ⟨(trail rightLinear (.initial 'S' ['a', 'a', 'b'])).take 2,
      (trail rightLinear (.initial 'S' ['a', 'a', 'b'])).drop 3, ?_, ?_⟩ <;> cbv
  obtain ⟨before, after, hk, hlast⟩ := htrail
  exact ⟨hsimple, hstart, hrun, ⟨before, _, after, hk, hlast, rfl, (hstack before _ after hk (by simp)).2.2⟩,
    (hchain hstart _ hrun).2.2.2⟩

end SimpleGrammar
