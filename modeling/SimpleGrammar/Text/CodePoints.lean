/-
Sets of characters, written as sorted tables of runs of code points.

A property of characters is data: a table of runs in increasing order. Looking a code point up reads the table from the
left and stops at the first run that reaches it, so a small code point costs a few comparisons whatever the length of
the table. Stopping there is right because the runs increase, which a table carries as a proof.

- `CodePointTable.covers_iff`: a table covers a code point exactly when some run contains it.
-/
namespace SimpleGrammar.Text

/-- the code points `first`, `first + step`, … up to `last` -/
structure CodePointRun where
  first : Nat
  last : Nat
  step : Nat
deriving DecidableEq, Repr

/-- `n` is one of the code points of the run -/
def CodePointRun.Contains (r : CodePointRun) (n : Nat) : Prop :=
  r.first ≤ n ∧ n ≤ r.last ∧ (n - r.first) % r.step = 0

instance (r : CodePointRun) (n : Nat) : Decidable (r.Contains n) := by
  unfold CodePointRun.Contains; infer_instance

/-- each run begins at or after `low`, ends no sooner than it begins, and ends before the next begins -/
def ascends : (low : Nat) → List CodePointRun → Bool
  | _, [] => true
  | low, r :: rest => low ≤ r.first && r.first ≤ r.last && ascends (r.last + 1) rest

theorem le_first_of_ascends {low : Nat} {runs : List CodePointRun} (h : ascends low runs = true) :
    ∀ r ∈ runs, low ≤ r.first := by
  induction runs generalizing low with
  | nil => simp
  | cons r rest ih =>
    simp only [ascends, Bool.and_eq_true, decide_eq_true_eq] at h
    intro s hs
    rcases List.mem_cons.1 hs with rfl | hs
    · exact h.1.1
    · have := ih h.2 s hs
      omega

/-- whether one of the runs contains `n`: only the first that reaches `n` is asked -/
def inRuns : List CodePointRun → Nat → Bool
  | [], _ => false
  | r :: rest, n => if n ≤ r.last then decide (r.Contains n) else inRuns rest n

theorem inRuns_iff_of_ascends {low : Nat} {runs : List CodePointRun} (h : ascends low runs = true) (n : Nat) :
    inRuns runs n = true ↔ ∃ r ∈ runs, r.Contains n := by
  induction runs generalizing low with
  | nil => simp [inRuns]
  | cons r rest ih =>
    simp only [ascends, Bool.and_eq_true, decide_eq_true_eq] at h
    by_cases hn : n ≤ r.last
    · -- the later runs begin above `r.last`, so none of them contains `n`
      have later : ¬ ∃ s ∈ rest, s.Contains n := by
        intro ⟨s, hs, hc⟩
        have := le_first_of_ascends h.2 s hs
        have := hc.1
        omega
      simp [inRuns, hn, later]
    · have here : ¬ r.Contains n := fun hc => hn hc.2.1
      simp [inRuns, hn, here, ih h.2]

/-! ## Tables -/

/-- a set of code points -/
structure CodePointTable where
  runs : List CodePointRun
  /-- each run ends before the next begins -/
  increasing : ascends 0 runs = true := by decide +kernel

namespace CodePointTable

def covers (t : CodePointTable) (n : Nat) : Bool := inRuns t.runs n

/-- no run after the one that is asked has a say -/
theorem covers_iff (t : CodePointTable) (n : Nat) : t.covers n = true ↔ ∃ r ∈ t.runs, r.Contains n :=
  inRuns_iff_of_ascends t.increasing n

end CodePointTable

end SimpleGrammar.Text
