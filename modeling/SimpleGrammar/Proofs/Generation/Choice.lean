/-
Every choice can be brought about.

- `accepts_and_index_iff`: the draws that count and give an index are as many numbers in a row for each index.
- `exists_draw`: so each index among `n` has one.
- `pick_eq`: a choice takes one draw after the other until one counts.
- `mem_eligible_iff`: what a nonterminal at a depth has to choose among.
- `exists_draw_of_mem_eligible`: each of these alternatives is chosen by some single draw.
-/
import Mathlib.Algebra.Group.Nat.Defs
import SimpleGrammar.Proofs.Simplicity
import SimpleGrammar.Sentence.Generation

namespace SimpleGrammar

/-! ## Draws for an index -/

namespace Choice

variable {n i : Nat}

/-- the least draw that gives an index of at least `i` among `n` -/
def first (n i : Nat) : Nat := (i * UInt32.size + (n - 1)) / n

theorem first_le_iff {k : Nat} (hn : 0 < n) : first n i ≤ k ↔ i * UInt32.size ≤ k * n := by
  rw [first, Nat.div_le_iff_le_mul_add_pred hn, Nat.add_le_add_iff_right, Nat.mul_comm n k]

/-- shifted left by its leading zeros, `n` has 32 bits -/
theorem leadingZeros_bounds (hn : 0 < n) (hsize : n < 2 ^ 32) :
    2 ^ 31 ≤ n * 2 ^ leadingZeros n ∧ n * 2 ^ leadingZeros n < 2 ^ 32 := by
  have hne : n ≠ 0 := Nat.ne_of_gt hn
  have hlog : n.log2 < 32 := (Nat.log2_lt hne).2 hsize
  have hsplit : n.log2 + leadingZeros n = 31 := by
    unfold leadingZeros
    omega
  refine ⟨?_, ?_⟩
  · calc 2 ^ 31 = 2 ^ n.log2 * 2 ^ leadingZeros n := by rw [← Nat.pow_add, hsplit]
      _ ≤ n * 2 ^ leadingZeros n := Nat.mul_le_mul_right _ (Nat.log2_self_le hne)
  · calc n * 2 ^ leadingZeros n < 2 ^ (n.log2 + 1) * 2 ^ leadingZeros n :=
          Nat.mul_lt_mul_of_pos_right Nat.lt_log2_self (Nat.two_pow_pos _)
      _ = 2 ^ 32 := by rw [← Nat.pow_add, Nat.add_right_comm, hsplit]

/-- **The draws for an index** are `2 ^ leadingZeros n` numbers in a row. -/
theorem accepts_and_index_iff (hi : i < n) (hsize : n < 2 ^ 32) {v : UInt32} :
    accepts n v = true ∧ index n v = i ↔ first n i ≤ v.toNat ∧ v.toNat < first n i + 2 ^ leadingZeros n := by
  have hn : 0 < n := Nat.zero_lt_of_lt hi
  have hzone : zone n = n * 2 ^ leadingZeros n - 1 := by rw [zone, Nat.shiftLeft_eq]
  obtain ⟨hlow, hhigh⟩ := leadingZeros_bounds hn hsize
  -- the product is one of the first `n * 2 ^ leadingZeros n` numbers from `i * 2 ^ 32` on
  have hproduct : accepts n v = true ∧ index n v = i ↔
      i * UInt32.size ≤ v.toNat * n ∧ v.toNat * n < i * UInt32.size + n * 2 ^ leadingZeros n := by
    have hs : UInt32.size = 2 ^ 32 := rfl
    rw [accepts, index, hzone, decide_eq_true_iff, hs]
    omega
  -- and it leaves them when the draw has grown by `2 ^ leadingZeros n`
  have hlast : first n i + 2 ^ leadingZeros n ≤ v.toNat ↔
      i * UInt32.size + n * 2 ^ leadingZeros n ≤ v.toNat * n := by
    rcases Nat.lt_or_ge v.toNat (2 ^ leadingZeros n) with hless | hmore
    · have hbelow := Nat.mul_lt_mul_of_pos_right hless hn
      rw [Nat.mul_comm n]
      omega
    · obtain ⟨k, hk⟩ := Nat.exists_eq_add_of_le' hmore
      rw [hk, Nat.add_le_add_iff_right, first_le_iff hn, Nat.add_mul, Nat.mul_comm n, Nat.add_le_add_iff_right]
  rw [hproduct, first_le_iff hn, ← Nat.not_le, ← Nat.not_le, hlast]

/-- the draws for an index are 32-bit numbers -/
theorem first_add_le (hi : i < n) (hsize : n < 2 ^ 32) : first n i + 2 ^ leadingZeros n ≤ UInt32.size := by
  have hn : 0 < n := Nat.zero_lt_of_lt hi
  obtain ⟨-, hhigh⟩ := leadingZeros_bounds hn hsize
  have hpow : 2 ^ leadingZeros n ≤ UInt32.size := by
    calc 2 ^ leadingZeros n ≤ n * 2 ^ leadingZeros n := Nat.le_mul_of_pos_left _ hn
      _ ≤ UInt32.size := Nat.le_of_lt hhigh
  have hroom : i * UInt32.size + n * 2 ^ leadingZeros n ≤ n * UInt32.size := by
    calc i * UInt32.size + n * 2 ^ leadingZeros n ≤ i * UInt32.size + UInt32.size :=
          Nat.add_le_add_left (Nat.le_of_lt hhigh) _
      _ = (i + 1) * UInt32.size := by rw [Nat.add_mul, Nat.one_mul]
      _ ≤ n * UInt32.size := Nat.mul_le_mul_right _ hi
  have hfirst : first n i ≤ UInt32.size - 2 ^ leadingZeros n := by
    rw [first_le_iff hn, Nat.sub_mul, Nat.mul_comm _ n, Nat.mul_comm _ n]
    exact Nat.le_sub_of_add_le hroom
  omega

/-- **Every index has a draw.** Among fewer than 2^32 things each can be chosen by one draw. -/
theorem exists_draw (hn : n < UInt32.size) (hi : i < n) : ∃ v, accepts n v = true ∧ index n v = i := by
  have hlast := first_add_le hi hn
  have hpow := Nat.two_pow_pos (leadingZeros n)
  have hlt : first n i < UInt32.size := by omega
  refine ⟨.ofNatLT (first n i) hlt, (accepts_and_index_iff hi hn).2 ?_⟩
  rw [UInt32.toNat_ofNatLT]
  omega

/-! ## Drawing until a draw counts -/

variable {d : Draws} {position : Nat}

/-- the zero draw counts -/
theorem accepts_zero (n : Nat) : accepts n 0 = true := by
  simp [accepts]

/-- **Draw by draw.** The next draw settles the choice or is thrown away. -/
theorem pick_eq : pick d n position =
    if accepts n (d.get position) then (index n (d.get position), position + 1) else pick d n (position + 1) := by
  rw [pick]
  unfold Draws.get
  split
  · rfl
  · -- beyond its length the source is zero, and a zero draw settles the choice
    rw [if_pos (accepts_zero n)]
    simp [index]

theorem pick_of_accepts {d : Draws} {position : Nat} (hlt : position < d.length)
    (h : accepts n (d.word position) = true) : pick d n position = (index n (d.word position), position + 1) := by
  rw [pick, if_pos hlt, if_pos h]

end Choice

/-! ## Draws for an alternative -/

namespace Sentence

variable {alts : Alternatives} {r : Rhs} {i depth maxDepth : Nat}

/-- **Eligible alternatives.** All are, except that from `maxDepth` on the words among them go first. -/
theorem mem_eligible_iff : (r, i) ∈ eligible alts depth maxDepth ↔
    alts[i]? = some r ∧ (maxDepth ≤ depth → (∃ u, word u ∈ alts) → ∃ u, r = word u) := by
  have hclosed : ∀ q j, (q, j) ∈ alts.zipIdx.filter (fun a => a.1.nonterminalCount = 0) ↔
      alts[j]? = some q ∧ ∃ u, q = word u := by
    intro q j
    rw [List.mem_filter, List.mem_zipIdx_iff_getElem?, decide_eq_true_iff, nonterminalCount_eq_zero_iff]
  have hsome : alts.zipIdx.filter (fun a => a.1.nonterminalCount = 0) ≠ [] ↔ ∃ u, word u ∈ alts := by
    constructor
    · intro hne
      obtain ⟨⟨q, j⟩, hq⟩ := List.exists_mem_of_ne_nil _ hne
      obtain ⟨hj, u, rfl⟩ := (hclosed q j).1 hq
      exact ⟨u, List.mem_of_getElem? hj⟩
    · rintro ⟨u, hu⟩
      obtain ⟨j, hj⟩ := List.mem_iff_getElem?.1 hu
      exact List.ne_nil_of_mem ((hclosed _ j).2 ⟨hj, u, rfl⟩)
  rw [eligible]
  split
  · next hdeep =>
    rw [hclosed]
    exact and_congr_right fun _ => ⟨fun hword _ _ => hword, fun h => h hdeep.1 (hsome.1 hdeep.2)⟩
  · next hfree =>
    rw [List.mem_zipIdx_iff_getElem?]
    exact (and_iff_left fun hdeep hword => absurd ⟨hdeep, hsome.2 hword⟩ hfree).symm

theorem length_eligible_le : (eligible alts depth maxDepth).length ≤ alts.length := by
  rw [eligible]
  split
  · exact Nat.le_trans (List.length_filter_le _ _) (Nat.le_of_eq List.length_zipIdx)
  · exact Nat.le_of_eq List.length_zipIdx

/-- what is chosen is eligible -/
theorem mem_eligible_of_chooseAlternative {d : Draws} {position next : Nat}
    (h : chooseAlternative d alts depth maxDepth position = some ((r, i), next)) :
    (r, i) ∈ eligible alts depth maxDepth := by
  obtain ⟨a, ha, heq⟩ := Option.map_eq_some_iff.1 h
  cases heq
  exact List.mem_of_getElem? ha

/-- a choice reads one draw at least -/
theorem lt_of_chooseAlternative {d : Draws} {position next : Nat} {a : Rhs × Nat}
    (h : chooseAlternative d alts depth maxDepth position = some (a, next)) : position < next := by
  obtain ⟨b, -, heq⟩ := Option.map_eq_some_iff.1 h
  cases heq
  exact Choice.lt_pick_snd d _ _

theorem eligible_eq_nil_iff : eligible alts depth maxDepth = [] ↔ alts = [] := by
  simp only [eligible]
  split
  · next hclosed => exact iff_of_false hclosed.2 fun h => hclosed.2 (by simp [h])
  · exact List.zipIdx_eq_nil_iff

/-- where there are alternatives one is chosen -/
theorem chooseAlternative_eq_none_iff {d : Draws} {position : Nat} :
    chooseAlternative d alts depth maxDepth position = none ↔ alts = [] := by
  rw [← @eligible_eq_nil_iff alts depth maxDepth, chooseAlternative, Option.map_eq_none_iff, List.getElem?_eq_none_iff]
  constructor
  · intro hle
    by_contra hne
    have hlt := Choice.pick_fst_lt d (List.length_pos_iff.2 hne) position
    omega
  · intro hnil
    simp [hnil]

/-- **Every eligible alternative is chosen** by some one draw. -/
theorem exists_draw_of_mem_eligible (hlen : alts.length < UInt32.size) (h : (r, i) ∈ eligible alts depth maxDepth) :
    ∃ v, ∀ (d : Draws) position, position < d.length → d.word position = v →
      chooseAlternative d alts depth maxDepth position = some ((r, i), position + 1) := by
  obtain ⟨j, hj⟩ := List.mem_iff_getElem?.1 h
  obtain ⟨hlt, -⟩ := List.getElem?_eq_some_iff.1 hj
  obtain ⟨v, hv, hindex⟩ := Choice.exists_draw (Nat.lt_of_le_of_lt length_eligible_le hlen) hlt
  refine ⟨v, fun d position hposition hword => ?_⟩
  subst hword
  rw [chooseAlternative, Choice.pick_of_accepts hposition hv, hindex]
  exact congrArg (Option.map (·, position + 1)) hj

end Sentence

end SimpleGrammar
