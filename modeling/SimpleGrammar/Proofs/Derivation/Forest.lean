/-
Derivation forests: derivations as data.

A forest has a row of roots. A root is a terminal, or the nonterminal of a step with the forest below it. A derivation
tree is a forest with one root. Roots, yield, steps and depths are read off a forest by recursion, and a forest may be
anything: that its nonterminals have an alternative below them is said apart (`Follows`).

- `leftmost_of_follows`: the steps of a forest from left to right are a leftmost derivation of its yield from its roots.
- `map_fst_nodes`: the steps and their depths are the steps.
- `roots_append`, `yield_append`, `nodes_append`, `follows_append_iff`: forests side by side.
-/
import SimpleGrammar.Proofs.Derivation

namespace SimpleGrammar

/-- derivation trees side by side -/
inductive Forest where
  | empty
  | terminal (c : Char) (rest : Forest)
  /-- the nonterminal of a step, with the forest below it, and the trees to the right -/
  | nonterminal (s : Step) (below rest : Forest)
deriving DecidableEq, Repr

namespace Forest

/-- the form that the roots are -/
def roots : Forest → List Symbol
  | empty => []
  | terminal c rest => .terminal c :: rest.roots
  | nonterminal s _ rest => .nonterminal s.nonterminal :: rest.roots

/-- the terminals from left to right -/
def yield : Forest → List Char
  | empty => []
  | terminal c rest => c :: rest.yield
  | nonterminal _ below rest => below.yield ++ rest.yield

/-- the steps, each before those below it, and those before the ones to the right -/
def steps : Forest → Derivation
  | empty => []
  | terminal _ rest => rest.steps
  | nonterminal s below rest => s :: (below.steps ++ rest.steps)

/-- the steps with their depths, when the roots are at `depth` -/
def nodes (depth : Nat) : Forest → List (Step × Nat)
  | empty => []
  | terminal _ rest => rest.nodes depth
  | nonterminal s below rest => (s, depth) :: (below.nodes (depth + 1) ++ rest.nodes depth)

/-- every nonterminal has a right-hand side of its step below it -/
def Follows (R : Rules) : Forest → Prop
  | empty => True
  | terminal _ rest => rest.Follows R
  | nonterminal s below rest => R s below.roots ∧ below.Follows R ∧ rest.Follows R

theorem map_fst_nodes (t : Forest) (depth : Nat) : (t.nodes depth).map Prod.fst = t.steps := by
  induction t generalizing depth with
  | empty => rfl
  | terminal c rest ih => exact ih depth
  | nonterminal s below rest ihb ihr => simp only [nodes, steps, List.map_cons, List.map_append, ihb, ihr]

/-- **A forest is a leftmost derivation.** Its steps lead from its roots to its yield, the first nonterminal being
replaced each time. -/
theorem leftmost_of_follows {R : Rules} {t : Forest} (h : t.Follows R) :
    Leftmost R t.roots t.steps (word t.yield) := by
  induction t with
  | empty => exact .refl []
  | terminal c rest ih => exact leftmost_terminal.2 ⟨_, rfl, ih h⟩
  | nonterminal s below rest ihb ihr =>
    obtain ⟨hs, hbelow, hrest⟩ := h
    -- the forest below is completed beside the other roots, then these are
    have hstep : Leftmost R (below.roots ++ rest.roots) (below.steps ++ rest.steps)
        (word (below.yield ++ rest.yield)) := by
      rw [word_append]
      exact ((ihb hbelow).append rest.roots).trans (leftmost_word_append (ihr hrest))
    exact leftmost_nonterminal.2 ⟨s.alternative, below.roots, _, rfl, hs, hstep⟩

/-! ## Side by side -/

/-- the trees of `t`, and those of `t'` to the right of them -/
def append (t t' : Forest) : Forest :=
  match t with
  | empty => t'
  | terminal c rest => terminal c (rest.append t')
  | nonterminal s below rest => nonterminal s below (rest.append t')

variable (t t' : Forest)

theorem roots_append : (t.append t').roots = t.roots ++ t'.roots := by
  induction t with
  | empty => rfl
  | terminal c rest ih => exact congrArg (_ :: ·) ih
  | nonterminal s below rest _ ih => exact congrArg (_ :: ·) ih

theorem yield_append : (t.append t').yield = t.yield ++ t'.yield := by
  induction t with
  | empty => rfl
  | terminal c rest ih => exact congrArg (c :: ·) ih
  | nonterminal s below rest _ ih => simp only [append, yield, ih, List.append_assoc]

theorem nodes_append (depth : Nat) : (t.append t').nodes depth = t.nodes depth ++ t'.nodes depth := by
  induction t with
  | empty => rfl
  | terminal c rest ih => exact ih
  | nonterminal s below rest _ ih => simp only [append, nodes, ih, List.cons_append, List.append_assoc]

theorem follows_append_iff {R : Rules} : (t.append t').Follows R ↔ t.Follows R ∧ t'.Follows R := by
  induction t with
  | empty => exact (and_iff_right trivial).symm
  | terminal c rest ih => exact ih
  | nonterminal s below rest _ ih => simp only [append, Follows, ih, and_assoc]

end Forest

end SimpleGrammar
