/-
The course of a run, with nothing to bound it.

`generate` counts down the depths that are left, so it cannot but end. Here a run is told without such a count: draws
are taken until one counts, and below every nonterminal that is expanded the run goes on one level deeper. A course is
a finite derivation by these rules, so that there is one means that the run ends, and that each depth it goes to is a
64-bit number.

- `Choice.Settles`, `Choice.settles_iff`: drawing until a draw counts is what `pick` does.
- `refusal?`, `Expansion`: what becomes of a nonterminal at a depth.
- `Course`: the rules of a run.
- `course_iff_generate`: from a start symbol there is one course, and it is the run of `generate`.
-/
import SimpleGrammar.Proofs.Generation.Choice
import SimpleGrammar.Proofs.Grammar.Definitions

namespace SimpleGrammar

/-! ## Drawing until a draw counts -/

namespace Choice

variable {d : Draws} {n i position next : Nat}

/-- the draws from `position` on are thrown away until one counts in a choice among `n`; its index is `i`, and `next`
is the position after it -/
inductive Settles (d : Draws) (n : Nat) : Nat → Nat → Nat → Prop
  | accept {position : Nat} (h : accepts n (d.get position) = true) :
    Settles d n position (index n (d.get position)) (position + 1)
  | reject {position i next : Nat} (h : ¬ accepts n (d.get position) = true) (t : Settles d n (position + 1) i next) :
    Settles d n position i next

theorem pick_of_settles (h : Settles d n position i next) : pick d n position = (i, next) := by
  induction h with
  | accept h => rw [pick_eq, if_pos h]
  | reject h _ ih => rw [pick_eq, if_neg h, ih]

/-- **A choice ends.** After finitely many draws there is one that counts. -/
theorem settles_pick (d : Draws) (n position : Nat) :
    Settles d n position (pick d n position).1 (pick d n position).2 := by
  fun_induction pick d n position with
  | case1 p hp h =>
    have hget : d.get p = d.word p := if_pos hp
    rw [← hget] at h ⊢
    exact .accept h
  | case2 p hp h ih =>
    have hget : d.get p = d.word p := if_pos hp
    rw [← hget] at h
    exact .reject h ih
  | case3 p hp =>
    -- past its length the source is zero, and the zero draw counts
    have hget : d.get p = 0 := if_neg hp
    have h : accepts n (d.get p) = true := by rw [hget, accepts_zero]
    have hindex : index n (d.get p) = 0 := by simp [hget, index]
    rw [← hindex]
    exact .accept h

theorem settles_iff : Settles d n position i next ↔ pick d n position = (i, next) := by
  refine ⟨pick_of_settles, fun h => ?_⟩
  have hpick := settles_pick d n position
  rwa [h] at hpick

/-- no more than one draw is read past the length of the source -/
theorem Settles.next_le (h : Settles d n position i next) : next ≤ max position d.length + 1 := by
  induction h with
  | accept _ => omega
  | @reject p _ _ h _ ih =>
    have hlt : p < d.length := by
      by_contra hge
      exact h (by rw [Draws.get, if_neg hge, accepts_zero])
    omega

end Choice

namespace Sentence

variable {g : Grammar} {d : Draws} {maxDepth levels depth position next i : Nat} {n : Char} {r : Rhs}
  {a : List Symbol} {run last : Run} {e : GenerationError}

/-! ## A nonterminal at a depth -/

/-- why `n` is not expanded at `depth`, if it is not: it has no definition, or it is too deep, or it has no
alternatives, and the first that is the case is the reason -/
def refusal? (g : Grammar) (maxDepth depth : Nat) (n : Char) : Option GenerationError :=
  match g.alternatives? n with
  | none => some (.undefinedNonterminal n)
  | some alts =>
    if depthLimit maxDepth < depth then some (.depthExceeded n) else if alts = [] then some (.noRules n) else none

/-- `n` is expanded at `depth` to its alternative `r`, which has the index `i`, by the draws from `position` up to
`next` -/
structure Expansion (g : Grammar) (d : Draws) (maxDepth depth : Nat) (n : Char) (position : Nat) (r : Rhs)
    (i next : Nat) : Prop where
  allowed : refusal? g maxDepth depth n = none
  chosen : ∃ alts j, g.alternatives? n = some alts ∧
    Choice.Settles d (eligible alts depth maxDepth).length position j next ∧
    (eligible alts depth maxDepth)[j]? = some (r, i)
  /-- the depth below is a 64-bit number -/
  fits : depth + 1 < UInt64.size

theorem refusal?_eq_none_iff : refusal? g maxDepth depth n = none ↔
    depth ≤ depthLimit maxDepth ∧ ∃ alts, g.alternatives? n = some alts ∧ alts ≠ [] := by
  unfold refusal?
  cases g.alternatives? n with
  | none => simp
  | some alts =>
    rcases Nat.lt_or_ge (depthLimit maxDepth) depth with hdeep | hdeep
    · simp [hdeep, Nat.not_le.2 hdeep]
    · simp [hdeep, Nat.not_lt.2 hdeep]

theorem chooseAlternative_eq_some_iff {alts : Alternatives} {x : Rhs × Nat} :
    chooseAlternative d alts depth maxDepth position = some (x, next) ↔
      ∃ j, Choice.Settles d (eligible alts depth maxDepth).length position j next ∧
        (eligible alts depth maxDepth)[j]? = some x := by
  simp only [chooseAlternative, Choice.settles_iff, Option.map_eq_some_iff, Prod.mk.injEq]
  constructor
  · rintro ⟨y, hy, rfl, rfl⟩
    exact ⟨_, rfl, hy⟩
  · rintro ⟨j, hj, hx⟩
    exact ⟨x, by rw [hj]; exact hx, rfl, by rw [hj]⟩

namespace Expansion

variable (h : Expansion g d maxDepth depth n position r i next)

include h

theorem depth_le : depth ≤ depthLimit maxDepth := (refusal?_eq_none_iff.1 h.allowed).1

theorem alternative : g.Alternative r := by
  obtain ⟨alts, j, halts, -, hat⟩ := h.chosen
  exact ⟨n, alts, halts, List.mem_of_getElem? (mem_eligible_iff.1 (List.mem_of_getElem? hat)).1⟩

theorem next_le : next ≤ max position d.length + 1 := by
  obtain ⟨_, _, -, hsettles, -⟩ := h.chosen
  exact hsettles.next_le

end Expansion

/-- a nonterminal that is not refused is expanded -/
theorem exists_expansion (h : refusal? g maxDepth depth n = none) (hfits : depth + 1 < UInt64.size)
    (position : Nat) : ∃ r i next, Expansion g d maxDepth depth n position r i next := by
  obtain ⟨hdepth, alts, halts, hne⟩ := refusal?_eq_none_iff.1 h
  cases hchoice : chooseAlternative d alts depth maxDepth position with
  | none => exact absurd (chooseAlternative_eq_none_iff.1 hchoice) hne
  | some x =>
    obtain ⟨⟨r, i⟩, next⟩ := x
    obtain ⟨j, hsettles, hat⟩ := chooseAlternative_eq_some_iff.1 hchoice
    exact ⟨r, i, next, h, ⟨alts, j, halts, hsettles, hat⟩, hfits⟩

/-! ## Runs -/

/-- a run at `depth` goes through a form: a run that has ended stays as it is, a terminal is written, and a
nonterminal is refused or expanded, and then the form below it gone through one level deeper -/
inductive Course (g : Grammar) (d : Draws) (maxDepth : Nat) : Nat → List Symbol → Run → Run → Prop
  | done {depth : Nat} {run : Run} : Course g d maxDepth depth [] run run
  | ended {depth : Nat} {a : List Symbol} {run : Run} (h : run.error ≠ none) : Course g d maxDepth depth a run run
  | write {depth : Nat} {c : Char} {a : List Symbol} {run last : Run} (h : run.error = none)
    (t : Course g d maxDepth depth a (run.write c) last) : Course g d maxDepth depth (.terminal c :: a) run last
  | refuse {depth : Nat} {n : Char} {a : List Symbol} {run : Run} {e : GenerationError} (h : run.error = none)
    (hrefusal : refusal? g maxDepth depth n = some e) :
    Course g d maxDepth depth (.nonterminal n :: a) run (run.fail ⟨n, depth, none⟩ e)
  | expand {depth : Nat} {n : Char} {a : List Symbol} {run mid last : Run} {r : Rhs} {i next : Nat}
    (h : run.error = none)
    (hexpansion : Expansion g d maxDepth depth n run.position r i next)
    (below : Course g d maxDepth (depth + 1) r (run.visit ⟨n, depth, some i⟩ next) mid)
    (rest : Course g d maxDepth depth a mid last) : Course g d maxDepth depth (.nonterminal n :: a) run last

/-- the run continued by the symbols of a form, one after the other -/
abbrev expandAll (g : Grammar) (d : Draws) (maxDepth levels depth : Nat) (a : List Symbol) (run : Run) : Run :=
  a.foldl (fun run s => run.andThen (expand g d maxDepth levels depth s)) run

theorem expandAll_of_error_ne_none (h : run.error ≠ none) : expandAll g d maxDepth levels depth a run = run := by
  induction a with
  | nil => rfl
  | cons s a ih =>
    rw [expandAll, List.foldl_cons, Run.andThen_of_error_ne_none h]
    exact ih

theorem expandAll_cons (h : run.error = none) (s : Symbol) (a : List Symbol) :
    expandAll g d maxDepth levels depth (s :: a) run =
      expandAll g d maxDepth levels depth a (expand g d maxDepth levels depth s run) := by
  rw [expandAll, List.foldl_cons, Run.andThen_of_error_eq_none h]

/-- the levels that are left say how far a depth is from being too deep -/
theorem expand_of_refusal? (hlevels : depth + levels = depthLimit maxDepth + 1)
    (h : refusal? g maxDepth depth n = some e) (run : Run) :
    expand g d maxDepth levels depth (.nonterminal n) run = run.fail ⟨n, depth, none⟩ e := by
  unfold refusal? at h
  rw [expand]
  cases halts : g.alternatives? n with
  | none =>
    rw [halts] at h
    cases h
    rfl
  | some alts =>
    rw [halts] at h
    cases levels with
    | zero =>
      have hdeep : depthLimit maxDepth < depth := by omega
      simp only [if_pos hdeep] at h
      cases h
      rfl
    | succ levels =>
      have hdepth : ¬ depthLimit maxDepth < depth := by omega
      simp only [if_neg hdepth] at h
      split at h
      · next hnil =>
        cases h
        simp only [chooseAlternative_eq_none_iff.2 hnil]
      · cases h

theorem expand_of_expansion (hlevels : depth + levels = depthLimit maxDepth + 1)
    (h : Expansion g d maxDepth depth n run.position r i next) :
    expand g d maxDepth levels depth (.nonterminal n) run =
      expandAll g d maxDepth (levels - 1) (depth + 1) r (run.visit ⟨n, depth, some i⟩ next) := by
  have hdepth := h.depth_le
  obtain ⟨alts, j, halts, hsettles, hat⟩ := h.chosen
  have hchoice := chooseAlternative_eq_some_iff.2 ⟨j, hsettles, hat⟩
  rw [expand, halts]
  cases levels with
  | zero => omega
  | succ levels => simp only [hchoice, Nat.add_sub_cancel]

/-! ## The course of a run -/

/-- a form has a course if the forms below it have one -/
theorem course_of_below (hfits : depthLimit maxDepth + 1 < UInt64.size)
    (hlevels : depth + levels = depthLimit maxDepth + 1)
    (hbelow : depth ≤ depthLimit maxDepth → ∀ r run,
      Course g d maxDepth (depth + 1) r run (expandAll g d maxDepth (levels - 1) (depth + 1) r run)) :
    Course g d maxDepth depth a run (expandAll g d maxDepth levels depth a run) := by
  induction a generalizing run with
  | nil => exact .done
  | cons s a ih =>
    by_cases h : run.error = none
    · rw [expandAll_cons h]
      cases s with
      | terminal c =>
        rw [expand]
        exact .write h ih
      | nonterminal n =>
        cases hrefusal : refusal? g maxDepth depth n with
        | some e =>
          rw [expand_of_refusal? hlevels hrefusal, expandAll_of_error_ne_none (Option.some_ne_none e)]
          exact .refuse h hrefusal
        | none =>
          have hdepth := (refusal?_eq_none_iff.1 hrefusal).1
          obtain ⟨r, i, next, hexpansion⟩ := exists_expansion (d := d) hrefusal (by omega) run.position
          rw [expand_of_expansion hlevels hexpansion]
          exact .expand h hexpansion (hbelow hdepth _ _) ih
    · rw [expandAll_of_error_ne_none h]
      exact .ended h

/-- **Every form has a course**, where the depths that are left are counted right and are all 64-bit numbers. -/
theorem course_expandAll (hfits : depthLimit maxDepth + 1 < UInt64.size) (levels : Nat) :
    ∀ {depth}, depth + levels = depthLimit maxDepth + 1 → ∀ a run,
      Course g d maxDepth depth a run (expandAll g d maxDepth levels depth a run) := by
  induction levels with
  | zero =>
    intro depth hlevels a run
    -- here every nonterminal is too deep
    exact course_of_below hfits hlevels fun hdepth => by omega
  | succ levels ih =>
    intro depth hlevels a run
    apply course_of_below hfits hlevels
    intro hdepth r run
    exact ih (by omega) r run

/-- **There is one course.** -/
theorem eq_expandAll_of_course (h : Course g d maxDepth depth a run last)
    (hlevels : depth + levels = depthLimit maxDepth + 1) : last = expandAll g d maxDepth levels depth a run := by
  induction h generalizing levels with
  | done => rfl
  | ended h => rw [expandAll_of_error_ne_none h]
  | write h t ih =>
    rw [expandAll_cons h, expand]
    exact ih hlevels
  | @refuse _ _ _ _ e h hrefusal =>
    rw [expandAll_cons h, expand_of_refusal? hlevels hrefusal, expandAll_of_error_ne_none (Option.some_ne_none e)]
  | @expand depth _ _ _ _ _ _ _ _ h hexpansion _ _ ihb ihr =>
    have hdepth := hexpansion.depth_le
    have hbelow : depth + 1 + (levels - 1) = depthLimit maxDepth + 1 := by omega
    rw [expandAll_cons h, expand_of_expansion hlevels hexpansion, ← ihb hbelow]
    exact ihr hlevels

/-- **The course of a run is the run.** -/
theorem course_iff_generate (hfits : depthLimit maxDepth + 1 < UInt64.size) {start : Char} :
    Course g d maxDepth 0 [.ofChar start] (.start position) run ↔ run = generate g d maxDepth start position := by
  have hlevels : 0 + (depthLimit maxDepth + 1) = depthLimit maxDepth + 1 := Nat.zero_add _
  have hrun : expandAll g d maxDepth (depthLimit maxDepth + 1) 0 [.ofChar start] (.start position) =
      generate g d maxDepth start position := expandAll_cons rfl _ _
  rw [← hrun]
  refine ⟨fun h => eq_expandAll_of_course h hlevels, ?_⟩
  rintro rfl
  exact course_expandAll hfits _ hlevels _ _

end Sentence

end SimpleGrammar
