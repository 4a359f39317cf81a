/-
Runs that do not come to their depth limit.

Above the limit there is all to choose from, and nothing is given up. So while a run keeps above its limit, a greater
limit has no say in it either: each nonterminal is expanded by the same choice, the same draws are read for it, and
whatever is read after it is read from the same position.

- `Run.Above`: all visits so far are above a limit. What holds of a run at its end has held all along, because visits
  are only added (`visits_suffix_expand`).
- `chooseAlternative_of_lt`, `depthLimit_lt_iff`: what the limit decides at a depth that is above it.
- `expand_eq_of_above`: a symbol is gone through alike under both limits.
- `generate_eq_of_above`: so is every run from its start.
-/
import Mathlib
import SimpleGrammar.Proofs.Generation.Visits

namespace SimpleGrammar.Sentence

variable {g : Grammar} {d : Draws} {maxDepth maxDepth' levels levels' depth position limit : Nat} {n : Char}
  {s : Symbol} {run last : Run}

/-! ## Visits are only added -/

/-- all that the run has visited is above the depth `limit` -/
def Run.Above (limit : Nat) (run : Run) : Prop := ∀ v ∈ run.visits, v.depth < limit

theorem Run.Above.of_suffix (h : last.Above limit) (hvisits : run.visits <:+ last.visits) : run.Above limit :=
  fun v hv => h v (hvisits.subset hv)

theorem visits_suffix_andThen {f : Run → Run} (hf : run.visits <:+ (f run).visits) :
    run.visits <:+ (run.andThen f).visits := by
  unfold Run.andThen
  split
  · exact List.suffix_rfl
  · exact hf

theorem visits_suffix_foldl {f : Symbol → Run → Run} (hf : ∀ s run, run.visits <:+ (f s run).visits) (a : List Symbol)
    (run : Run) : run.visits <:+ (a.foldl (fun run s => run.andThen (f s)) run).visits := by
  induction a generalizing run with
  | nil => exact List.suffix_rfl
  | cons s a ih => exact (visits_suffix_andThen (hf s run)).trans (ih _)

/-- going through a symbol leaves the visits before it as they are -/
theorem visits_suffix_expand (g : Grammar) (d : Draws) (maxDepth levels depth : Nat) (s : Symbol) (run : Run) :
    run.visits <:+ (expand g d maxDepth levels depth s run).visits := by
  induction levels using Nat.strongRecOn generalizing depth s run with
  | ind levels ih =>
    cases s with
    | terminal c =>
      rw [expand]
      exact List.suffix_rfl
    | nonterminal n =>
      rcases expand_nonterminal_cases d levels depth n run with
        ⟨e, heq, -⟩ | ⟨alts, r, i, next, below, rfl, -, -, heq⟩
      · rw [heq]
        exact List.suffix_cons _ _
      · rw [heq]
        have hfold := visits_suffix_foldl (fun s run => ih below (Nat.lt_succ_self below) (depth + 1) s run) r
          (run.visit ⟨n, depth, some i⟩ next)
        exact (List.suffix_cons _ _).trans hfold

/-- a nonterminal is visited itself, whatever becomes of it -/
theorem exists_visit_expand (g : Grammar) (d : Draws) (maxDepth levels depth : Nat) (n : Char) (run : Run) :
    ∃ v ∈ (expand g d maxDepth levels depth (.nonterminal n) run).visits, v.depth = depth := by
  rcases expand_nonterminal_cases d levels depth n run with
    ⟨e, heq, -⟩ | ⟨alts, r, i, next, below, -, -, -, heq⟩
  · rw [heq]
    exact ⟨⟨n, depth, none⟩, List.mem_cons_self, rfl⟩
  · rw [heq]
    have hfold := visits_suffix_foldl (visits_suffix_expand g d maxDepth below (depth + 1)) r
      (run.visit ⟨n, depth, some i⟩ next)
    exact ⟨⟨n, depth, some i⟩, hfold.subset List.mem_cons_self, rfl⟩

theorem depth_lt_of_above (h : (expand g d maxDepth levels depth (.nonterminal n) run).Above limit) :
    depth < limit := by
  obtain ⟨v, hv, rfl⟩ := exists_visit_expand g d maxDepth levels depth n run
  exact h v hv

/-! ## What a limit decides above it -/

/-- above the limit there is all to choose from -/
theorem eligible_of_lt {alts : Alternatives} (h : depth < maxDepth) : eligible alts depth maxDepth = alts.zipIdx :=
  if_neg fun hdeep => Nat.not_le.2 h hdeep.1

theorem chooseAlternative_of_lt {alts : Alternatives} (h : depth < maxDepth) (h' : depth < maxDepth') :
    chooseAlternative d alts depth maxDepth position = chooseAlternative d alts depth maxDepth' position := by
  rw [chooseAlternative, chooseAlternative, eligible_of_lt h, eligible_of_lt h']

/-- above the limit a depth can only be too deep for being no 64-bit number, which no greater limit mends -/
theorem depthLimit_lt_iff (h : depth < maxDepth) (hle : maxDepth ≤ maxDepth') :
    depthLimit maxDepth < depth ↔ depthLimit maxDepth' < depth := by
  unfold depthLimit
  omega

/-! ## Two limits -/

/-- symbols are gone through alike one after the other -/
theorem foldl_eq_of_above {f f' : Symbol → Run → Run} (hf : ∀ s run, run.visits <:+ (f s run).visits)
    (hsame : ∀ s run, (f s run).Above limit → f' s run = f s run) {a : List Symbol}
    (h : (a.foldl (fun run s => run.andThen (f s)) run).Above limit) :
    a.foldl (fun run s => run.andThen (f' s)) run = a.foldl (fun run s => run.andThen (f s)) run := by
  induction a generalizing run with
  | nil => rfl
  | cons s a ih =>
    have hfirst : run.andThen (f' s) = run.andThen (f s) := by
      by_cases herror : run.error = none
      · have habove : (run.andThen (f s)).Above limit := h.of_suffix (visits_suffix_foldl hf a _)
        rw [Run.andThen_of_error_eq_none herror] at habove
        rw [Run.andThen_of_error_eq_none herror, Run.andThen_of_error_eq_none herror]
        exact hsame s run habove
      · rw [Run.andThen_of_error_ne_none herror, Run.andThen_of_error_ne_none herror]
    rw [List.foldl_cons, List.foldl_cons, hfirst]
    exact ih h

/-- **A symbol under two limits.** If going through a symbol keeps above a limit, then it comes to the same under every
greater one. The levels are those that are left under each. -/
theorem expand_eq_of_above (hle : maxDepth ≤ maxDepth') (hlevels : depth + levels = depthLimit maxDepth + 1)
    (hlevels' : depth + levels' = depthLimit maxDepth' + 1)
    (h : (expand g d maxDepth levels depth s run).Above maxDepth) :
    expand g d maxDepth' levels' depth s run = expand g d maxDepth levels depth s run := by
  induction levels generalizing levels' depth s run with
  | zero =>
    cases s with
    | terminal c => rw [expand, expand]
    | nonterminal n =>
      have hdeep := depthLimit_lt_iff (depth_lt_of_above h) hle
      obtain rfl : levels' = 0 := by omega
      rw [expand, expand]
  | succ levels ih =>
    cases s with
    | terminal c => rw [expand, expand]
    | nonterminal n =>
      have hdepth := depth_lt_of_above h
      have hdeep := depthLimit_lt_iff hdepth hle
      obtain ⟨below, rfl⟩ : ∃ below, levels' = below + 1 := Nat.exists_eq_succ_of_ne_zero (by omega)
      have hbelow : ∀ s run, (expand g d maxDepth levels (depth + 1) s run).Above maxDepth →
          expand g d maxDepth' below (depth + 1) s run = expand g d maxDepth levels (depth + 1) s run :=
        fun s run => ih (by omega) (by omega)
      rw [expand] at h ⊢
      rw [expand]
      cases halts : g.alternatives? n with
      | none => rfl
      | some alts =>
        rw [halts] at h
        simp only [chooseAlternative_of_lt (Nat.lt_of_lt_of_le hdepth hle) hdepth] at h ⊢
        cases hchoice : chooseAlternative d alts depth maxDepth run.position with
        | none => rfl
        | some x =>
          obtain ⟨⟨r, i⟩, next⟩ := x
          rw [hchoice] at h
          exact foldl_eq_of_above (visits_suffix_expand g d maxDepth levels (depth + 1)) hbelow h

/-- **The depth limit only matters once it is reached.** If a run visits no nonterminal at the depth limit or deeper,
then under any greater limit it is the same run: it comes to the same sentence or error, has read the same draws, and
has visited and chosen the same. -/
theorem generate_eq_of_above (g : Grammar) (d : Draws) (start : Char) (position : Nat) {maxDepth maxDepth' : Nat}
    (hle : maxDepth ≤ maxDepth') (h : ∀ v ∈ (generate g d maxDepth start position).visits, v.depth < maxDepth) :
    generate g d maxDepth' start position = generate g d maxDepth start position :=
  expand_eq_of_above hle (Nat.zero_add _) (Nat.zero_add _) h

/-- `S -> aS | b` -/
def repeating : Grammar := .ofRules [('S', ["aS", "b"])]

/-- with three visits, the last at depth 2, the limit 3 is not reached, and the limit 32 gives the same sentence -/
theorem generate_eq_of_above_repeating :
    3 ≤ 32 ∧ (∀ v ∈ (generate repeating (.ofList [0, 0, 0x80000000]) 3 'S' 0).visits, v.depth < 3) ∧
      (generate repeating (.ofList [0, 0, 0x80000000]) 3 'S' 0).result = .ok ['a', 'a', 'b'] ∧
      generate repeating (.ofList [0, 0, 0x80000000]) 32 'S' 0 =
        generate repeating (.ofList [0, 0, 0x80000000]) 3 'S' 0 := by
  have hle : 3 ≤ 32 := by decide
  have hvisits : (generate repeating (.ofList [0, 0, 0x80000000]) 3 'S' 0).visits =
      [⟨'S', 2, some 1⟩, ⟨'S', 1, some 0⟩, ⟨'S', 0, some 0⟩] := by cbv
  have habove : ∀ v ∈ (generate repeating (.ofList [0, 0, 0x80000000]) 3 'S' 0).visits, v.depth < 3 := by
    rw [hvisits]
    decide
  have hresult : (generate repeating (.ofList [0, 0, 0x80000000]) 3 'S' 0).result = .ok ['a', 'a', 'b'] := by cbv
  exact ⟨hle, habove, hresult, generate_eq_of_above repeating _ 'S' 0 hle habove⟩

-- with the same draws: a visit at the limit is steered, and a greater limit leaves it to the draws
example : (generate repeating (.ofList []) 2 'S' 0).result = .ok ['a', 'a', 'b'] ∧
    (generate repeating (.ofList []) 3 'S' 0).result = .ok ['a', 'a', 'a', 'b'] := by
  decide +kernel

end SimpleGrammar.Sentence
