/-
Runs of the generator are derivation forests.

A run writes from left to right what stands below the symbols it goes through. Whatever the draws and the depth limit
are, a run that comes to its end has gone along a derivation forest: it has written the yield of the forest and
visited its nodes in order, and the forest keeps to the steering.

- `Run.grow`: what a forest adds to a run.
- `expand_completes`: going through one symbol adds a tree, or the run ends without a sentence.
- `exists_forest_of_generate`: a generated sentence is the yield of a steered tree, whose nodes are the visits.
- `yields_of_generate`: so it is below the start symbol.
-/
import SimpleGrammar.Proofs.Derivation.Forest
import SimpleGrammar.Proofs.Generation.Visits

namespace SimpleGrammar.Sentence

variable {g : Grammar} {d : Draws} {maxDepth levels limit depth position : Nat}

/-! ## Steered forests -/

/-- from `maxDepth` on a nonterminal that has words among its alternatives is expanded to one of them -/
def Steered (g : Grammar) (maxDepth : Nat) (s : Step) (depth : Nat) : Prop :=
  maxDepth ≤ depth → (∃ i u, g.Rule ⟨s.nonterminal, i⟩ (word u)) → ∃ u, g.Rule s (word u)

/-- the forest follows the rules; its nodes are above `limit` and steered, when the roots are at `depth` -/
structure Grown (g : Grammar) (maxDepth limit depth : Nat) (t : Forest) : Prop where
  follows : t.Follows g.Rule
  above : ∀ x ∈ t.nodes depth, x.2 < limit
  steered : ∀ x ∈ t.nodes depth, Steered g maxDepth x.1 x.2

theorem grown_empty : Grown g maxDepth limit depth .empty := ⟨trivial, by simp [Forest.nodes], by simp [Forest.nodes]⟩

theorem grown_terminal_iff {c : Char} {rest : Forest} :
    Grown g maxDepth limit depth (.terminal c rest) ↔ Grown g maxDepth limit depth rest :=
  ⟨fun h => ⟨h.follows, h.above, h.steered⟩, fun h => ⟨h.follows, h.above, h.steered⟩⟩

theorem grown_nonterminal_iff {s : Step} {below rest : Forest} :
    Grown g maxDepth limit depth (.nonterminal s below rest) ↔
      g.Rule s below.roots ∧ depth < limit ∧ Steered g maxDepth s depth ∧
        Grown g maxDepth limit (depth + 1) below ∧ Grown g maxDepth limit depth rest := by
  constructor
  · rintro ⟨⟨hs, hbelow, hrest⟩, habove, hsteered⟩
    simp only [Forest.nodes, List.forall_mem_cons, List.forall_mem_append] at habove hsteered
    obtain ⟨ha, hab, har⟩ := habove
    obtain ⟨ht, htb, htr⟩ := hsteered
    exact ⟨hs, ha, ht, ⟨hbelow, hab, htb⟩, ⟨hrest, har, htr⟩⟩
  · rintro ⟨hs, ha, ht, hb, hr⟩
    refine ⟨⟨hs, hb.follows, hr.follows⟩, ?_, ?_⟩
    · simp only [Forest.nodes, List.forall_mem_cons, List.forall_mem_append]
      exact ⟨ha, hb.above, hr.above⟩
    · simp only [Forest.nodes, List.forall_mem_cons, List.forall_mem_append]
      exact ⟨ht, hb.steered, hr.steered⟩

theorem Grown.append {t t' : Forest} (h : Grown g maxDepth limit depth t) (h' : Grown g maxDepth limit depth t') :
    Grown g maxDepth limit depth (t.append t') := by
  refine ⟨(t.follows_append_iff t').2 ⟨h.follows, h'.follows⟩, ?_, ?_⟩
  · rw [Forest.nodes_append]
    exact List.forall_mem_append.2 ⟨h.above, h'.above⟩
  · rw [Forest.nodes_append]
    exact List.forall_mem_append.2 ⟨h.steered, h'.steered⟩

/-- a choice among the eligible alternatives is a steered step -/
theorem rule_and_steered_iff_mem_eligible {alts : Alternatives} {s : Step} {r : Rhs}
    (halts : g.alternatives? s.nonterminal = some alts) :
    (r, s.alternative) ∈ eligible alts depth maxDepth ↔ g.Rule s r ∧ Steered g maxDepth s depth := by
  have hrule : ∀ {i q}, g.Rule ⟨s.nonterminal, i⟩ q ↔ alts[i]? = some q := by
    intro i q
    rw [Grammar.rule_iff, halts]
    simp
  have hwords : (∃ i u, g.Rule ⟨s.nonterminal, i⟩ (word u)) ↔ ∃ u, word u ∈ alts := by
    simp only [hrule, List.mem_iff_getElem?]
    exact exists_comm
  have hs : g.Rule s r ↔ alts[s.alternative]? = some r := hrule
  rw [mem_eligible_iff, Steered, hwords, hs]
  refine and_congr_right fun hr => ?_
  have hword : (∃ u, g.Rule s (word u)) ↔ ∃ u, r = word u := by
    have hs' : ∀ {q}, g.Rule s q ↔ alts[s.alternative]? = some q := hrule
    simp only [hs', hr, Option.some.injEq]
  rw [hword]

/-! ## Runs along forests -/

/-- how a node of a forest is visited -/
def Visit.ofNode (x : Step × Nat) : Visit := ⟨x.1.nonterminal, x.2, some x.1.alternative⟩

/-- the run gone along a forest with `count` draws -/
def Run.grow (run : Run) (t : Forest) (depth count : Nat) : Run :=
  ⟨run.error, run.position + count, t.yield.reverse ++ run.written,
    ((t.nodes depth).map Visit.ofNode).reverse ++ run.visits⟩

theorem Run.grow_append (run : Run) (t t' : Forest) (depth m n : Nat) :
    (run.grow t depth m).grow t' depth n = run.grow (t.append t') depth (m + n) := by
  simp only [Run.grow, Forest.yield_append, Forest.nodes_append, List.map_append, List.reverse_append,
    List.append_assoc, Nat.add_assoc]

/-- an expansion, and the forest below it -/
theorem Run.grow_visit (run : Run) (s : Step) (below : Forest) (depth m n : Nat) :
    (run.visit ⟨s.nonterminal, depth, some s.alternative⟩ (run.position + m)).grow below (depth + 1) n =
      run.grow (.nonterminal s below .empty) depth (m + n) := by
  simp [Run.grow, Run.visit, Forest.yield, Forest.nodes, Visit.ofNode, Nat.add_assoc]

/-- if `next` has come to its end, then it has gone from `run` along a forest over the form -/
def Completes (g : Grammar) (maxDepth limit depth : Nat) (a : List Symbol) (run next : Run) : Prop :=
  next.error = none → ∃ t count, t.roots = a ∧ Grown g maxDepth limit depth t ∧ next = run.grow t depth count

theorem completes_nil (run : Run) : Completes g maxDepth limit depth [] run run :=
  fun _ => ⟨.empty, 0, rfl, grown_empty, rfl⟩

theorem Completes.append {a b : List Symbol} {run mid next : Run} (ha : Completes g maxDepth limit depth a run mid)
    (hb : Completes g maxDepth limit depth b mid next) : Completes g maxDepth limit depth (a ++ b) run next := by
  intro h
  obtain ⟨t', n, rfl, ht', rfl⟩ := hb h
  obtain ⟨t, m, rfl, ht, rfl⟩ := ha h
  exact ⟨t.append t', m + n, t.roots_append t', ht.append ht', run.grow_append t t' depth m n⟩

theorem completes_write (c : Char) (run : Run) :
    Completes g maxDepth limit depth [.terminal c] run (run.write c) :=
  fun _ => ⟨.terminal c .empty, 0, rfl, grown_terminal_iff.2 grown_empty, rfl⟩

theorem completes_fail (a : List Symbol) (run : Run) (v : Visit) (e : GenerationError) :
    Completes g maxDepth limit depth a run (run.fail v e) := by
  intro h
  cases h

/-- a run that has ended is not continued, and then it has not come to its end -/
theorem Completes.andThen {a : List Symbol} {run : Run} {f : Run → Run}
    (h : Completes g maxDepth limit depth a run (f run)) : Completes g maxDepth limit depth a run (run.andThen f) := by
  rw [Run.andThen]
  split
  · next herror =>
    intro hnone
    rw [hnone] at herror
    cases herror
  · exact h

/-- symbols that are completed one after the other complete the form -/
theorem completes_foldl {f : Symbol → Run → Run} (hf : ∀ s run, Completes g maxDepth limit depth [s] run (f s run))
    (a : List Symbol) (run : Run) :
    Completes g maxDepth limit depth a run (a.foldl (fun run s => run.andThen (f s)) run) := by
  induction a generalizing run with
  | nil => exact completes_nil run
  | cons s a ih => exact (hf s run).andThen.append (ih _)

/-- **A symbol is completed.** Going through a symbol, at any depth and with any draws, goes along a tree whose nodes
are at the depths there are levels for, or the run ends without a sentence. -/
theorem expand_completes (s : Symbol) (run : Run) :
    Completes g maxDepth (depth + levels) depth [s] run (expand g d maxDepth levels depth s run) := by
  induction levels using Nat.strongRecOn generalizing depth s run with
  | ind levels ih =>
    cases s with
    | terminal c =>
      rw [expand]
      exact completes_write c run
    | nonterminal n =>
      rcases expand_nonterminal_cases d levels depth n run with
        ⟨e, heq, -⟩ | ⟨alts, r, i, next, levels, rfl, halts, hchoice, heq⟩
      · rw [heq]
        exact completes_fail _ run _ e
      · have hmem := mem_eligible_of_chooseAlternative hchoice
        obtain ⟨hrule, hsteered⟩ := (rule_and_steered_iff_mem_eligible (s := ⟨n, i⟩) halts).1 hmem
        have hlimit : depth + (levels + 1) = depth + 1 + levels := by omega
        rw [heq, hlimit]
        intro h
        obtain ⟨below, count, rfl, hbelow, hgrow⟩ :=
          completes_foldl (fun s run => ih levels (Nat.lt_succ_self levels) s run) r
            (run.visit ⟨n, depth, some i⟩ next) h
        obtain ⟨m, rfl⟩ := Nat.exists_eq_add_of_le (Nat.le_of_lt (lt_of_chooseAlternative hchoice))
        refine ⟨.nonterminal ⟨n, i⟩ below .empty, m + count, rfl, ?_, ?_⟩
        · exact grown_nonterminal_iff.2 ⟨hrule, by omega, hsteered, hbelow, grown_empty⟩
        · rw [hgrow]
          exact run.grow_visit ⟨n, i⟩ below depth m count

/-- **Generated sentences have derivation trees.** Whatever the draws, a sentence is the yield of a tree from the start
symbol that keeps to the depth limit and the steering, and the visits of the run are the nodes of the tree in order. -/
theorem exists_forest_of_generate {start : Char} {w : List Char}
    (h : (generate g d maxDepth start position).result = .ok w) :
    ∃ t : Forest, t.roots = [.ofChar start] ∧ t.yield = w ∧ Grown g maxDepth (depthLimit maxDepth + 1) 0 t ∧
      (generate g d maxDepth start position).visits.reverse = (t.nodes 0).map Visit.ofNode := by
  rw [Run.result] at h
  split at h
  · cases h
  · next hnone =>
    cases h
    obtain ⟨t, count, hroots, ht, hrun⟩ := expand_completes (.ofChar start) (.start position) hnone
    rw [Nat.zero_add] at ht
    refine ⟨t, hroots, ?_, ht, ?_⟩
    · rw [generate, hrun]
      simp [Run.grow, Run.start]
    · rw [generate, hrun]
      simp [Run.grow, Run.start]

/-- **Generated sentences are derived.** Whatever the draws and the depth limit, the sentence of a run is derived from
the start symbol by the rules of the grammar. -/
theorem yields_of_generate {start : Char} {w : List Char}
    (h : (generate g d maxDepth start position).result = .ok w) : Yields g.Rule [.ofChar start] w := by
  obtain ⟨t, hroots, rfl, ht, -⟩ := exists_forest_of_generate h
  rw [← hroots]
  exact exists_leftmost_iff_yields.1 ⟨t.steps, Forest.leftmost_of_follows ht.follows⟩

end SimpleGrammar.Sentence
