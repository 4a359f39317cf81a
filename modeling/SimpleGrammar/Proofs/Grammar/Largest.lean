/-
The largest alternative of a grammar, by a size of one's choice.

- `largest_le_iff`: it is bounded by what bounds every alternative, and by nothing less.
-/
import SimpleGrammar.Proofs.Grammar.Definitions

namespace SimpleGrammar.Grammar

variable {g : Grammar} {size : Rhs → Nat} {r : Rhs}

/-- the greatest size that an alternative of the grammar has, 0 when there is no alternative -/
def largest (g : Grammar) (size : Rhs → Nat) : Nat :=
  (g.rules.entries.flatMap Prod.snd).foldr (fun r m => max (size r) m) 0

theorem mem_flatMap_entries_iff : r ∈ g.rules.entries.flatMap Prod.snd ↔ g.Alternative r := by
  simp only [List.mem_flatMap, Alternative, alternatives?, ← CharMap.mem_entries_iff, Prod.exists]

theorem foldr_max_le_iff {rs : List Rhs} {m : Nat} :
    rs.foldr (fun r m => max (size r) m) 0 ≤ m ↔ ∀ r ∈ rs, size r ≤ m := by
  induction rs with
  | nil => simp
  | cons r rs ih => rw [List.foldr_cons, Nat.max_le, ih, List.forall_mem_cons]

theorem largest_le_iff {m : Nat} : g.largest size ≤ m ↔ ∀ r, g.Alternative r → size r ≤ m := by
  unfold largest
  simp only [foldr_max_le_iff, mem_flatMap_entries_iff]

theorem size_le_largest (h : g.Alternative r) : size r ≤ g.largest size :=
  largest_le_iff.1 (Nat.le_refl _) r h

end SimpleGrammar.Grammar
