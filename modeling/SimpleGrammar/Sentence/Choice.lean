/-
A uniform choice among `n` things from 32-bit draws.

A draw `v` is multiplied by `n`: the upper half of the product is the index, and the lower half decides whether the draw
counts. Of the lower halves only a multiple of `n` many are let through, as many for each index; other draws are thrown
away and the next one is taken. The zero draw counts and gives index 0.
-/
import SimpleGrammar.Sentence.Draws

namespace SimpleGrammar.Choice

/-- the leading zero bits of `n` as a 32-bit word, for `n` positive and below 2^32 -/
def leadingZeros (n : Nat) : Nat := 31 - n.log2

/-- the greatest lower half that lets a draw count: `n` shifted left as far as 32 bits allow, less one -/
def zone (n : Nat) : Nat := n <<< leadingZeros n - 1

/-- whether the draw `v` counts in a choice among `n` -/
def accepts (n : Nat) (v : UInt32) : Bool := v.toNat * n % UInt32.size ≤ zone n

/-- the index that a draw gives -/
def index (n : Nat) (v : UInt32) : Nat := v.toNat * n / UInt32.size

/-- the index chosen among `n` by the draws from `position` on, and the position after them -/
def pick (d : Draws) (n : Nat) (position : Nat) : Nat × Nat :=
  if position < d.length then
    if accepts n (d.word position) then (index n (d.word position), position + 1) else pick d n (position + 1)
  else (0, position + 1)
termination_by d.length - position

theorem index_lt {n : Nat} (h : 0 < n) (v : UInt32) : index n v < n := by
  have hv := v.toNat_lt_size
  exact Nat.div_lt_of_lt_mul (Nat.mul_lt_mul_of_pos_right hv h)

theorem pick_fst_lt (d : Draws) {n : Nat} (h : 0 < n) (position : Nat) : (pick d n position).1 < n := by
  fun_induction pick d n position with
  | case1 p _ _ => exact index_lt h _
  | case2 p _ _ ih => exact ih
  | case3 p _ => exact h

theorem lt_pick_snd (d : Draws) (n : Nat) (position : Nat) : position < (pick d n position).2 := by
  fun_induction pick d n position with
  | case1 p _ _ => exact Nat.lt_succ_self p
  | case2 p _ _ ih => exact Nat.lt_of_succ_lt ih
  | case3 p _ => exact Nat.lt_succ_self p

end SimpleGrammar.Choice
