/-
Choices are uniform.

The draws that settle a choice are divided into equal shares, one for each alternative there is to choose from; a draw
that settles nothing is thrown away, and the next one has the same shares. It makes no difference whether all
alternatives are to choose from or, in the depth, only those without nonterminals.

- `ncard_draws`: each index has the same number of draws.
- `decides_iff`: which draws decide for an alternative.
- `ncard_decides`: each alternative that is eligible has its share of the draws.
-/
import Mathlib.Data.Set.Card
import SimpleGrammar.Proofs.Generation.Choice

namespace SimpleGrammar

/-! ## Shares of the indices -/

namespace Choice

variable {n i : Nat}

/-- **Equal shares.** Of the 2^32 draws `2 ^ leadingZeros n` give an index, whichever it is. -/
theorem ncard_draws (hi : i < n) (hsize : n < 2 ^ 32) :
    {v | accepts n v = true ∧ index n v = i}.ncard = 2 ^ leadingZeros n := by
  have hlast := first_add_le hi hsize
  have hword : ∀ {j}, j < 2 ^ leadingZeros n → first n i + j < UInt32.size := by
    intro j hj
    omega
  -- they are numbered from the first one on
  apply Set.ncard_eq_of_bijective fun j hj => UInt32.ofNatLT (first n i + j) (hword hj)
  · intro v hv
    obtain ⟨hle, hlt⟩ := (accepts_and_index_iff hi hsize).1 hv
    refine ⟨v.toNat - first n i, by omega, ?_⟩
    apply UInt32.toNat_inj.1
    rw [UInt32.toNat_ofNatLT]
    omega
  · intro j hj
    apply (accepts_and_index_iff hi hsize).2
    rw [UInt32.toNat_ofNatLT]
    omega
  · intro j k hj hk heq
    have hnat := congrArg UInt32.toNat heq
    simp only [UInt32.toNat_ofNatLT] at hnat
    omega

end Choice

namespace Sentence

variable {alts : Alternatives} {depth maxDepth i : Nat} {v : UInt32}

/-! ## The alternatives to choose from -/

theorem eligible_sublist : (eligible alts depth maxDepth).Sublist alts.zipIdx := by
  rw [eligible]
  split
  · exact List.filter_sublist
  · exact List.Sublist.refl _

theorem nodup_eligible : (eligible alts depth maxDepth).Nodup := by
  apply eligible_sublist.nodup
  apply List.Nodup.of_map Prod.snd
  rw [List.zipIdx_map_snd]
  exact List.nodup_range'

/-- from `maxDepth` on they are the alternatives without nonterminals, if there are any, and otherwise all -/
theorem map_fst_eligible : (eligible alts depth maxDepth).map Prod.fst =
    if maxDepth ≤ depth ∧ alts.filter (·.nonterminalCount = 0) ≠ [] then alts.filter (·.nonterminalCount = 0)
    else alts := by
  have hclosed : (alts.zipIdx.filter fun a => a.1.nonterminalCount = 0).map Prod.fst =
      alts.filter (·.nonterminalCount = 0) := by
    calc (alts.zipIdx.filter fun a => a.1.nonterminalCount = 0).map Prod.fst
        = (alts.zipIdx.map Prod.fst).filter (·.nonterminalCount = 0) := by
          rw [List.filter_map]
          rfl
      _ = alts.filter (·.nonterminalCount = 0) := by rw [List.zipIdx_map_fst]
  have hempty : alts.zipIdx.filter (fun a => a.1.nonterminalCount = 0) ≠ [] ↔
      alts.filter (·.nonterminalCount = 0) ≠ [] := by
    rw [← hclosed, ne_eq, ne_eq, List.map_eq_nil_iff]
  simp only [eligible, hempty]
  split
  · exact hclosed
  · exact List.zipIdx_map_fst 0 alts

/-! ## Shares of the alternatives -/

/-- a choice that comes upon the draw `v` is settled by it, for `a`, whatever the other draws are -/
def Decides (alts : Alternatives) (depth maxDepth : Nat) (v : UInt32) (a : Rhs × Nat) : Prop :=
  ∀ (d : Draws) position, d.get position = v →
    chooseAlternative d alts depth maxDepth position = some (a, position + 1)

/-- a draw that counts settles the choice for the alternative at its index -/
theorem chooseAlternative_of_accepts {d : Draws} {position : Nat}
    (h : Choice.accepts (eligible alts depth maxDepth).length (d.get position) = true) :
    chooseAlternative d alts depth maxDepth position =
      ((eligible alts depth maxDepth)[Choice.index (eligible alts depth maxDepth).length (d.get position)]?).map
        (·, position + 1) := by
  rw [chooseAlternative, Choice.pick_eq, if_pos h]

/-- a draw that does not count leaves the choice to the next one -/
theorem chooseAlternative_of_not_accepts {d : Draws} {position : Nat}
    (h : ¬ Choice.accepts (eligible alts depth maxDepth).length (d.get position) = true) :
    chooseAlternative d alts depth maxDepth position = chooseAlternative d alts depth maxDepth (position + 1) := by
  rw [chooseAlternative, Choice.pick_eq, if_neg h]
  rfl

/-- the draws that decide for the alternative at an index are those that count and give the index -/
theorem decides_iff (hi : i < (eligible alts depth maxDepth).length) :
    Decides alts depth maxDepth v (eligible alts depth maxDepth)[i] ↔
      Choice.accepts (eligible alts depth maxDepth).length v = true ∧
        Choice.index (eligible alts depth maxDepth).length v = i := by
  refine ⟨fun h => ?_, ?_⟩
  · -- the source that has this draw alone
    have hget : (Draws.ofList [v]).get 0 = v := rfl
    have hchoice := h (.ofList [v]) 0 hget
    have haccepts : Choice.accepts (eligible alts depth maxDepth).length v = true := by
      by_contra hnot
      rw [chooseAlternative_of_not_accepts (by rw [hget]; exact hnot)] at hchoice
      exact absurd (lt_of_chooseAlternative hchoice) (Nat.lt_irrefl 1)
    rw [chooseAlternative_of_accepts (by rw [hget]; exact haccepts), hget] at hchoice
    obtain ⟨a, ha, heq⟩ := Option.map_eq_some_iff.1 hchoice
    cases heq
    obtain ⟨hlt, hat⟩ := List.getElem?_eq_some_iff.1 ha
    exact ⟨haccepts, nodup_eligible.getElem_inj_iff.1 hat⟩
  · rintro ⟨haccepts, hindex⟩ d position rfl
    rw [chooseAlternative_of_accepts haccepts, hindex, List.getElem?_eq_getElem hi]
    rfl

/-- **Alternatives are chosen uniformly.** When a nonterminal has alternatives, fewer than 2^32, it chooses from
`maxDepth` on among those without nonterminals, if there are any, and among all otherwise; each stands with its index.
Let `n` be their number and `z` the leading zeros of `n` as a 32-bit word. For each of them there are `2 ^ z` draws
that decide for it, and a draw that decides for none is thrown away. -/
theorem ncard_decides (alts : Alternatives) (hne : alts ≠ []) (hsize : alts.length < 2 ^ 32) (depth maxDepth : Nat) :
    (eligible alts depth maxDepth).Sublist alts.zipIdx ∧
    (eligible alts depth maxDepth).map Prod.fst =
      (if maxDepth ≤ depth ∧ alts.filter (·.nonterminalCount = 0) ≠ [] then alts.filter (·.nonterminalCount = 0)
        else alts) ∧
    ∀ n z, n = (eligible alts depth maxDepth).length → z = Choice.leadingZeros n →
      (2 ^ 31 ≤ n * 2 ^ z ∧ n * 2 ^ z < 2 ^ 32) ∧
      (∀ i (hi : i < (eligible alts depth maxDepth).length),
        {v | Decides alts depth maxDepth v (eligible alts depth maxDepth)[i]}.ncard = 2 ^ z) ∧
      ∀ (d : Draws) position,
        (∀ a ∈ eligible alts depth maxDepth, ¬ Decides alts depth maxDepth (d.get position) a) →
        chooseAlternative d alts depth maxDepth position = chooseAlternative d alts depth maxDepth (position + 1) := by
  have hpos : 0 < (eligible alts depth maxDepth).length := by
    apply List.length_pos_iff.2
    intro hnil
    exact hne (eligible_eq_nil_iff.1 hnil)
  have hlt : (eligible alts depth maxDepth).length < 2 ^ 32 := Nat.lt_of_le_of_lt length_eligible_le hsize
  refine ⟨eligible_sublist, map_fst_eligible, ?_⟩
  rintro n z rfl rfl
  refine ⟨Choice.leadingZeros_bounds hpos hlt, fun i hi => ?_, fun d position hnone => ?_⟩
  · simp only [decides_iff hi]
    exact Choice.ncard_draws hi hlt
  · apply chooseAlternative_of_not_accepts
    intro haccepts
    have hindex := Choice.index_lt hpos (d.get position)
    exact hnone _ (List.getElem_mem hindex) ((decides_iff hindex).2 ⟨haccepts, rfl⟩)

/-- at the depth limit three of four alternatives are to choose from, and `b`, which stands third, has 2^30 draws -/
theorem ncard_decides_three :
    let alts : Alternatives := [[.nonterminal 'S'], [.terminal 'a'], [.terminal 'b'], [.terminal 'c']]
    alts ≠ [] ∧ alts.length < 2 ^ 32 ∧ {v | Decides alts 1 1 v ([.terminal 'b'], 2)}.ncard = 2 ^ 30 := by
  intro alts
  have hne : alts ≠ [] := List.cons_ne_nil _ _
  have hsize : alts.length < 2 ^ 32 := by decide
  obtain ⟨-, -, hshares⟩ := ncard_decides alts hne hsize 1 1
  obtain ⟨-, hshare, -⟩ := hshares 3 30 (by decide) (by decide)
  exact ⟨hne, hsize, hshare 1 (by decide)⟩

end Sentence

end SimpleGrammar
