/-
How far a run goes.

A nonterminal that is expanded is at the depth limit or above it, so what a run visits is at most one level below. An
alternative hands on no more nonterminals than the largest one has, so the visits at a depth are at most as many as a
power of that number. And a choice reads what is left of the draws that are given, or one draw after them.

- `depth_of_course`, `countP_depth_of_course`, `position_of_course`: what a course adds to the visits and to the draws.
- `generate_terminates`: every run ends, with its depths, its expansions and its draws in bounds.
-/
import Mathlib
import SimpleGrammar.Proofs.Generation.Course
import SimpleGrammar.Proofs.Grammar.Largest

namespace SimpleGrammar.Sentence

open Finset

variable {g : Grammar} {d : Draws} {maxDepth depth position next i j k : Nat} {n : Char} {r : Rhs} {a : List Symbol}
  {run last : Run}

/-- how many nonterminals the run has expanded -/
def Run.expansions (run : Run) : Nat := run.visits.countP (·.chosen.isSome)

/-! ## Depths -/

/-- what a course adds is no deeper than one level below the limit, and what it expands no deeper than the limit -/
theorem depth_of_course (h : Course g d maxDepth depth a run last) (hdepth : depth ≤ depthLimit maxDepth + 1) :
    ∀ v ∈ last.visits, v ∈ run.visits ∨
      v.depth ≤ depthLimit maxDepth + 1 ∧ (v.chosen.isSome → v.depth ≤ depthLimit maxDepth) := by
  induction h with
  | done => exact fun v hv => .inl hv
  | ended _ => exact fun v hv => .inl hv
  | write _ _ ih => exact ih hdepth
  | refuse _ _ =>
    intro v hv
    rcases List.mem_cons.1 hv with rfl | hv
    · exact .inr ⟨hdepth, fun h => by cases h⟩
    · exact .inl hv
  | expand _ hexpansion _ _ ihb ihr =>
    have hle := hexpansion.depth_le
    intro v hv
    rcases ihr hdepth v hv with hv | hv
    · rcases ihb (by omega) v hv with hv | hv
      · rcases List.mem_cons.1 hv with rfl | hv
        · exact .inr ⟨hdepth, fun _ => hle⟩
        · exact .inl hv
      · exact .inr hv
    · exact .inr hv

/-! ## Visits at a depth -/

/-- the most visits at the depth `j` that one nonterminal at `depth` brings, if no alternative has more than `k` of
them -/
def share (k depth j : Nat) : Nat := if depth ≤ j then k ^ (j - depth) else 0

theorem share_zero : share k 0 j = k ^ j := by
  simp [share]

/-- a nonterminal is visited itself, and then those that it hands on one level deeper are -/
theorem share_eq : share k depth j = (if depth = j then 1 else 0) + k * share k (depth + 1) j := by
  rcases Nat.lt_trichotomy depth j with hlt | rfl | hgt
  · have hpow : j - depth = j - (depth + 1) + 1 := by omega
    rw [share, share, if_pos (by omega), if_neg (by omega), if_pos (by omega), hpow, Nat.pow_succ, Nat.mul_comm,
      Nat.zero_add]
  · simp [share]
  · rw [share, share, if_neg (by omega), if_neg (by omega), if_neg (by omega), Nat.mul_zero]

/-- **Visits by depth.** A course through a form adds no more visits at a depth than the share of its nonterminals. -/
theorem countP_depth_of_course (hk : ∀ r, g.Alternative r → r.nonterminalCount ≤ k)
    (h : Course g d maxDepth depth a run last) :
    last.visits.countP (·.depth = j) ≤
      run.visits.countP (·.depth = j) + Rhs.nonterminalCount a * share k depth j := by
  induction h with
  | done => simp
  | ended _ => exact Nat.le_add_right _ _
  | write _ _ ih =>
    rw [nonterminalCount_terminal_cons]
    exact ih
  | @refuse depth n a run e _ _ =>
    have hself : (if depth = j then 1 else 0) ≤ share k depth j := by
      rw [share_eq]
      exact Nat.le_add_right _ _
    rw [nonterminalCount_nonterminal_cons, Nat.add_mul, Nat.one_mul]
    simp only [Run.fail, List.countP_cons, decide_eq_true_eq]
    omega
  | @expand depth n a run mid last r i next _ hexpansion _ _ ihb ihr =>
    have hbelow : Rhs.nonterminalCount r * share k (depth + 1) j ≤ k * share k (depth + 1) j :=
      Nat.mul_le_mul_right _ (hk r hexpansion.alternative)
    have hself : share k depth j = (if depth = j then 1 else 0) + k * share k (depth + 1) j := share_eq
    simp only [Run.visit, List.countP_cons, decide_eq_true_eq] at ihb
    rw [nonterminalCount_nonterminal_cons, Nat.add_mul, Nat.one_mul]
    omega

/-- elements that are numbered below `limit` are counted number by number -/
theorem countP_le_sum_range {α : Type} {l : List α} {p : α → Bool} {f : α → Nat} {limit : Nat}
    (h : ∀ x ∈ l, p x = true → f x < limit) : l.countP p ≤ ∑ j ∈ range limit, l.countP (f · = j) := by
  induction l with
  | nil => simp
  | cons x l ih =>
    obtain ⟨hx, hl⟩ := List.forall_mem_cons.1 h
    have hone : (if p x = true then 1 else 0) ≤ ∑ j ∈ range limit, if f x = j then 1 else 0 := by
      split
      · next hp => simp [hx hp]
      · exact Nat.zero_le _
    simp only [List.countP_cons, decide_eq_true_eq, sum_add_distrib]
    exact Nat.add_le_add (ih hl) hone

/-- **Visits in all.** If a run from a start symbol makes visits of a kind only above the depth `limit`, then they are
at most as many as there are nodes above it in a tree with `k` branches. -/
theorem countP_visits_le (hfits : depthLimit maxDepth + 1 < UInt64.size)
    (hk : ∀ r, g.Alternative r → r.nonterminalCount ≤ k) {start : Char} {p : Visit → Bool} {limit : Nat}
    (h : ∀ v ∈ (generate g d maxDepth start position).visits, p v = true → v.depth < limit) :
    (generate g d maxDepth start position).visits.countP p ≤ ∑ j ∈ range limit, k ^ j := by
  have hcourse : Course g d maxDepth 0 [.ofChar start] (.start position) (generate g d maxDepth start position) :=
    (course_iff_generate hfits).2 rfl
  have hcount : Rhs.nonterminalCount [.ofChar start] ≤ 1 := List.countP_le_length
  calc (generate g d maxDepth start position).visits.countP p
      ≤ ∑ j ∈ range limit, (generate g d maxDepth start position).visits.countP (·.depth = j) := countP_le_sum_range h
    _ ≤ ∑ j ∈ range limit, k ^ j := by
      apply sum_le_sum
      intro j _
      have hvisits := countP_depth_of_course (j := j) hk hcourse
      rw [share_zero] at hvisits
      calc (generate g d maxDepth start position).visits.countP (·.depth = j)
          ≤ 0 + Rhs.nonterminalCount [.ofChar start] * k ^ j := hvisits
        _ ≤ 0 + 1 * k ^ j := Nat.add_le_add_left (Nat.mul_le_mul_right _ hcount) 0
        _ = k ^ j := by rw [Nat.zero_add, Nat.one_mul]

/-! ## Draws -/

/-- **Draws in all.** Each expansion reads one draw at most past the length of the source. -/
theorem position_of_course (h : Course g d maxDepth depth a run last) :
    max last.position d.length + run.expansions ≤ max run.position d.length + last.expansions := by
  induction h with
  | done => exact Nat.le_refl _
  | ended _ => exact Nat.le_refl _
  | write _ _ ih => exact ih
  | refuse _ _ => exact Nat.le_refl _
  | @expand depth n a run mid last r i next _ hexpansion _ _ ihb ihr =>
    have hnext := hexpansion.next_le
    have hmore : (run.visit ⟨n, depth, some i⟩ next).expansions = run.expansions + 1 :=
      List.countP_cons_of_pos rfl
    have hposition : (run.visit ⟨n, depth, some i⟩ next).position = next := rfl
    rw [hmore, hposition] at ihb
    omega

/-! ## Every run -/

/-- **Every run ends.** When the depth limit is below 2^63, twice the limit and all depths are 64-bit numbers. By the
rules alone, from any start symbol and with any finite list of draws, a run has one course, and it is what is
generated. It visits nothing deeper than one level below twice the limit, and it can count one level on from whatever
it expands. Its expansions are at most as many as a tree down to twice the limit has nodes, if each has as many
branches as there are nonterminals in the largest alternative; and it reads the draws of the list and then at most one
for each expansion. -/
theorem generate_terminates (g : Grammar) (words : List UInt32) (maxDepth : Nat) (hdepth : maxDepth < 2 ^ 63)
    (start : Char) :
    depthLimit maxDepth = 2 * maxDepth ∧
    (∀ run, Course g (.ofList words) maxDepth 0 [.ofChar start] (.start 0) run ↔
      run = generate g (.ofList words) maxDepth start 0) ∧
    (∀ v ∈ (generate g (.ofList words) maxDepth start 0).visits,
      v.depth ≤ 2 * maxDepth + 1 ∧ (v.chosen.isSome → v.depth + 1 < 2 ^ 64)) ∧
    (generate g (.ofList words) maxDepth start 0).expansions ≤
      ∑ i ∈ range (2 * maxDepth + 1), g.largest Rhs.nonterminalCount ^ i ∧
    (generate g (.ofList words) maxDepth start 0).position ≤
      words.length + (generate g (.ofList words) maxDepth start 0).expansions := by
  have hlimit := depthLimit_of_lt hdepth
  have hfits := depthLimit_add_one_lt hdepth
  have hcourse : Course g (.ofList words) maxDepth 0 [.ofChar start] (.start 0)
      (generate g (.ofList words) maxDepth start 0) := (course_iff_generate hfits).2 rfl
  have hvisits : ∀ v ∈ (generate g (.ofList words) maxDepth start 0).visits,
      v.depth ≤ 2 * maxDepth + 1 ∧ (v.chosen.isSome → v.depth ≤ 2 * maxDepth) := by
    intro v hv
    rw [← hlimit]
    exact (depth_of_course hcourse (Nat.zero_le _) v hv).resolve_left (List.not_mem_nil)
  refine ⟨hlimit, fun run => course_iff_generate hfits, fun v hv => ?_, ?_, ?_⟩
  · obtain ⟨hvisited, hexpanded⟩ := hvisits v hv
    exact ⟨hvisited, fun h => by have := hexpanded h; omega⟩
  · apply countP_visits_le hfits fun r => Grammar.size_le_largest
    intro v hv h
    exact Nat.lt_succ_of_le ((hvisits v hv).2 h)
  · have hdraws := position_of_course hcourse
    have hlength : (Draws.ofList words).length = words.length := List.size_toArray
    have hstart : (Run.start 0).position = 0 ∧ (Run.start 0).expansions = 0 := ⟨rfl, rfl⟩
    omega

/-- `S -> SS` -/
def doubling : Grammar := .ofRules [('S', ["SS"])]

/-- a grammar that never ends by itself: the run is given up, here after three expansions and one draw that does not
count -/
theorem generate_terminates_doubling :
    1 < 2 ^ 63 ∧
      Course doubling (.ofList [0xFFFFFFFF]) 1 0 [.nonterminal 'S'] (.start 0)
        (generate doubling (.ofList [0xFFFFFFFF]) 1 'S' 0) ∧
      (generate doubling (.ofList [0xFFFFFFFF]) 1 'S' 0).result = .error (.depthExceeded 'S') ∧
      (generate doubling (.ofList [0xFFFFFFFF]) 1 'S' 0).expansions ≤ 1 + 2 + 2 ^ 2 ∧
      (generate doubling (.ofList [0xFFFFFFFF]) 1 'S' 0).position ≤ 1 + 3 := by
  have hdepth : 1 < 2 ^ 63 := by decide
  obtain ⟨-, hcourse, -, hexpansions, hposition⟩ := generate_terminates doubling [0xFFFFFFFF] 1 hdepth 'S'
  have hresult : (generate doubling (.ofList [0xFFFFFFFF]) 1 'S' 0).result = .error (.depthExceeded 'S') := by cbv
  have hthree : (generate doubling (.ofList [0xFFFFFFFF]) 1 'S' 0).expansions = 3 := by cbv
  have htree : ∑ i ∈ range (2 * 1 + 1), doubling.largest Rhs.nonterminalCount ^ i = 1 + 2 + 2 ^ 2 := by decide
  rw [htree] at hexpansions
  rw [hthree] at hposition
  exact ⟨hdepth, (hcourse _).2 rfl, hresult, hexpansions, hposition⟩

end SimpleGrammar.Sentence
