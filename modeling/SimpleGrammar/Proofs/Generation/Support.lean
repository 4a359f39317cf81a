/-
The sentences that can be generated.

A run along a derivation tree needs one draw for each node, in the order of the nodes: the draw that chooses the
node's alternative among those that are eligible at its depth. So the generator's sentences are the yields of the
trees that it may grow, and nothing is lost to the order of the draws or to the way an index is drawn.

- `Draws.Gives`: what the draws are from a position on.
- `exists_words_of_grown`: the draws that lead along a forest.
- `generates_iff_steered_tree`: a sentence is generated by some draws exactly when it is the yield of a steered tree
  above twice the depth limit.
-/
import Mathlib
import SimpleGrammar.Proofs.Generation.Soundness

namespace SimpleGrammar

/-! ## Draws at a position -/

namespace Draws

variable {d : Draws} {position : Nat} {v : UInt32} {words more : List UInt32}

/-- the draws from `position` on begin with `words` -/
def Gives (d : Draws) (position : Nat) (words : List UInt32) : Prop :=
  ∀ i v, words[i]? = some v → position + i < d.length ∧ d.word (position + i) = v

theorem Gives.head (h : d.Gives position (v :: words)) : position < d.length ∧ d.word position = v := h 0 v rfl

theorem Gives.tail (h : d.Gives position (v :: words)) : d.Gives (position + 1) words := by
  intro i u hu
  rw [Nat.add_assoc, Nat.add_comm 1 i]
  exact h (i + 1) u hu

theorem Gives.left (h : d.Gives position (words ++ more)) : d.Gives position words := by
  intro i u hu
  apply h i u
  rw [List.getElem?_append_left (List.getElem?_eq_some_iff.1 hu).1]
  exact hu

theorem Gives.right (h : d.Gives position (words ++ more)) : d.Gives (position + words.length) more := by
  intro i u hu
  rw [Nat.add_assoc]
  apply h (words.length + i) u
  rw [List.getElem?_append_right (Nat.le_add_right _ _), Nat.add_sub_cancel_left]
  exact hu

theorem gives_ofList (words : List UInt32) : (ofList words).Gives 0 words := by
  intro i u hu
  obtain ⟨hlt, rfl⟩ := List.getElem?_eq_some_iff.1 hu
  simp [ofList, hlt]

end Draws

namespace Sentence

variable {g : Grammar} {maxDepth limit depth : Nat}

/-! ## Runs along a given forest -/

/-- an expansion whose alternative and whose forest below it are drawn -/
theorem expand_eq_grow {d : Draws} {levels m : Nat} {s : Step} {below : Forest} {alts : Alternatives} {run : Run}
    (halts : g.alternatives? s.nonterminal = some alts)
    (hchoice : chooseAlternative d alts depth maxDepth run.position =
      some ((below.roots, s.alternative), run.position + 1))
    (hbelow : ∀ run' : Run, run'.error = run.error → run'.position = run.position + 1 →
      below.roots.foldl (fun run s => run.andThen (expand g d maxDepth levels (depth + 1) s)) run' =
        run'.grow below (depth + 1) m) :
    expand g d maxDepth (levels + 1) depth (.nonterminal s.nonterminal) run =
      run.grow (.nonterminal s below .empty) depth (1 + m) := by
  rw [expand, halts]
  simp only [hchoice]
  rw [hbelow (run.visit ⟨s.nonterminal, depth, some s.alternative⟩ (run.position + 1)) rfl rfl]
  exact run.grow_visit s below depth 1 m

/-- **Every forest can be drawn.** A steered forest above the limit has words that, drawn one after the other, make a
run go along it. -/
theorem exists_words_of_grown (hg : ∀ n alts, g.alternatives? n = some alts → alts.length < UInt32.size) (t : Forest) :
    ∀ levels depth, Grown g maxDepth (depth + levels) depth t → ∃ words : List UInt32, ∀ (d : Draws) (run : Run),
      run.error = none → d.Gives run.position words →
      t.roots.foldl (fun run s => run.andThen (expand g d maxDepth levels depth s)) run =
        run.grow t depth words.length := by
  induction t with
  | empty => exact fun levels depth _ => ⟨[], fun d run _ _ => rfl⟩
  | terminal c rest ih =>
    intro levels depth ht
    obtain ⟨words, hwords⟩ := ih levels depth (grown_terminal_iff.1 ht)
    refine ⟨words, fun d run hrun hgives => ?_⟩
    have hexpand : expand g d maxDepth levels depth (.terminal c) run = run.write c := by
      rw [expand]
    rw [Forest.roots, List.foldl_cons, Run.andThen_of_error_eq_none hrun, hexpand, hwords d (run.write c) hrun hgives]
    simp [Run.grow, Run.write, Forest.yield, Forest.nodes]
  | nonterminal s below rest ihb ihr =>
    intro levels depth ht
    obtain ⟨hrule, hlt, hsteered, hbelow, hrest⟩ := grown_nonterminal_iff.1 ht
    cases levels with
    | zero => omega
    | succ levels =>
      obtain ⟨alts, halts, -⟩ := Grammar.rule_iff.1 hrule
      have hmem := (rule_and_steered_iff_mem_eligible (s := s) halts).2 ⟨hrule, hsteered⟩
      obtain ⟨v, hv⟩ := exists_draw_of_mem_eligible (hg _ alts halts) hmem
      have hdeeper : depth + (levels + 1) = depth + 1 + levels := by omega
      obtain ⟨us, hus⟩ := ihb levels (depth + 1) (hdeeper ▸ hbelow)
      obtain ⟨ws, hws⟩ := ihr (levels + 1) depth hrest
      -- one draw for the nonterminal, then those for the forest below it, then those for what is to the right
      refine ⟨v :: (us ++ ws), fun d run hrun hgives => ?_⟩
      obtain ⟨hposition, hword⟩ := hgives.head
      have hfirst : expand g d maxDepth (levels + 1) depth (.nonterminal s.nonterminal) run =
          run.grow (.nonterminal s below .empty) depth (1 + us.length) := by
        apply expand_eq_grow halts (hv d run.position hposition hword)
        intro run' herror hnext
        apply hus d run' (herror.trans hrun)
        rw [hnext]
        exact hgives.tail.left
      have hthen : d.Gives (run.position + (1 + us.length)) ws := by
        rw [← Nat.add_assoc]
        exact hgives.tail.right
      have hcount : 1 + us.length + ws.length = (v :: (us ++ ws)).length := by
        simp only [List.length_cons, List.length_append]
        omega
      rw [Forest.roots, List.foldl_cons, Run.andThen_of_error_eq_none hrun, hfirst,
        hws d (run.grow (.nonterminal s below .empty) depth (1 + us.length)) hrun hthen, Run.grow_append, hcount]
      rfl

/-! ## What is generated -/

/-- **The sentences that can be generated.** When no nonterminal has 2^32 alternatives and the depth limit is below
2^63, a sentence is generated by some finite list of draws exactly when it is the yield of a derivation tree from the
start symbol in which every node is at most twice the depth limit below the root, and every node from the depth limit
on whose nonterminal has an alternative without nonterminals is expanded to such an alternative. -/
theorem generates_iff_steered_tree (g : Grammar)
    (hg : ∀ n alts, g.alternatives? n = some alts → alts.length < 2 ^ 32) (start : Char) (maxDepth : Nat)
    (hdepth : maxDepth < 2 ^ 63) (w : List Char) :
    (∃ words : List UInt32, (generate g (.ofList words) maxDepth start 0).result = .ok w) ↔
      ∃ t : Forest, t.roots = [.ofChar start] ∧ t.yield = w ∧ t.Follows g.Rule ∧
        ∀ s depth, (s, depth) ∈ t.nodes 0 → depth ≤ 2 * maxDepth ∧
          (maxDepth ≤ depth → (∃ i u, g.Rule ⟨s.nonterminal, i⟩ (word u)) → ∃ u, g.Rule s (word u)) := by
  have hlimit : depthLimit maxDepth = 2 * maxDepth := by
    have hsize : UInt64.size = 2 ^ 64 := rfl
    rw [depthLimit]
    omega
  constructor
  · rintro ⟨words, h⟩
    obtain ⟨t, hroots, hyield, ht, -⟩ := exists_forest_of_generate h
    rw [hlimit] at ht
    exact ⟨t, hroots, hyield, ht.follows, fun s depth hs => ⟨Nat.lt_succ_iff.1 (ht.above _ hs), ht.steered _ hs⟩⟩
  · rintro ⟨t, hroots, rfl, hfollows, hnodes⟩
    have ht : Grown g maxDepth (0 + (depthLimit maxDepth + 1)) 0 t := by
      rw [hlimit, Nat.zero_add]
      exact ⟨hfollows, fun x hx => Nat.lt_succ_iff.2 (hnodes x.1 x.2 hx).1, fun x hx => (hnodes x.1 x.2 hx).2⟩
    obtain ⟨words, hwords⟩ := exists_words_of_grown hg t _ 0 ht
    refine ⟨words, ?_⟩
    have hrun := hwords (.ofList words) (.start 0) rfl (Draws.gives_ofList words)
    rw [hroots, List.foldl_cons, List.foldl_nil, Run.andThen_of_error_eq_none rfl] at hrun
    rw [generate, hrun]
    simp [Run.result, Run.grow, Run.start]

/-- `S -> AB | d`, `A -> aB` and `B -> b` -/
def nested : Grammar := .ofRules [('S', ["AB", "d"]), ('A', ["aB"]), ('B', ["b"])]

/-- with depth limit 1, `abb` has a tree with a node at depth 2: `A` has no alternative without nonterminals -/
theorem generates_nested :
    (∀ n alts, nested.alternatives? n = some alts → alts.length < 2 ^ 32) ∧ 1 < 2 ^ 63 ∧
      ∃ words : List UInt32, (generate nested (.ofList words) 1 'S' 0).result = .ok ['a', 'b', 'b'] := by
  have hlength : ∀ n alts, nested.alternatives? n = some alts → alts.length < 2 ^ 32 := by
    intro n alts halts
    have hall : ∀ e ∈ nested.rules.entries, e.2.length < 2 ^ 32 := by decide
    exact hall _ (CharMap.mem_entries_iff.2 halts)
  have hdepth : 1 < 2 ^ 63 := by decide
  refine ⟨hlength, hdepth, (generates_iff_steered_tree nested hlength 'S' 1 hdepth _).2 ?_⟩
  let leaf := Forest.nonterminal ⟨'B', 0⟩ (.terminal 'b' .empty) .empty
  refine ⟨.nonterminal ⟨'S', 0⟩ (.nonterminal ⟨'A', 0⟩ (.terminal 'a' leaf) leaf) .empty, by decide, by decide, ?_, ?_⟩
  · exact ⟨by decide, ⟨by decide, ⟨by decide, trivial, trivial⟩, ⟨by decide, trivial, trivial⟩⟩, trivial⟩
  · intro s depth hs
    have hb : nested.Rule ⟨'B', 0⟩ (word ['b']) := by decide
    have ha : ∀ i u, ¬ nested.Rule ⟨'A', i⟩ (word u) := by
      intro i u h
      obtain ⟨alts, halts, hi⟩ := Grammar.rule_iff.1 h
      have hsome : ∀ e ∈ nested.rules.entries, e.1 = 'A' → ∀ r ∈ e.2, r.nonterminalCount ≠ 0 := by decide
      have hcount := hsome _ (CharMap.mem_entries_iff.2 halts) rfl _ (List.mem_of_getElem? hi)
      exact hcount (nonterminalCount_word u)
    have hnodes : (s, depth) = (⟨'S', 0⟩, 0) ∨ (s, depth) = (⟨'A', 0⟩, 1) ∨ (s, depth) = (⟨'B', 0⟩, 2) ∨
        (s, depth) = (⟨'B', 0⟩, 1) := by
      simpa [leaf, Forest.nodes] using hs
    rcases hnodes with h | h | h | h <;> cases h
    · exact ⟨by decide, fun hdeep => absurd hdeep (by decide)⟩
    · refine ⟨by decide, ?_⟩
      rintro - ⟨i, u, hu⟩
      exact absurd hu (ha i u)
    · exact ⟨by decide, fun _ _ => ⟨['b'], hb⟩⟩
    · exact ⟨by decide, fun _ _ => ⟨['b'], hb⟩⟩

end Sentence

end SimpleGrammar
