/-
The order of undefined references.

The groups of a text may come in any order. What they hold together is the definitions of the text, each of which has
a line number of its own, and all references of one line come from one definition. Sorting by line keeps the
references of a line as they are, so it puts them in the order of the text.

- `eq_of_filter_fst`: lists that increase by number are equal when they have the same at each number.
- `mergeSort_flatMap_of_perm`: what comes from numbered items is sorted into the order of the items.
- `perm_flatMap_groups`: the groups hold the definitions.
- `undefinedReferences_of_perm`: the undefined references of groups in any order.
-/
import Mathlib.Data.List.Nodup
import SimpleGrammar.Proofs.Source.References

namespace SimpleGrammar

/-! ## Sorting by number -/

section

variable {α β : Type} {as bs : List (Nat × α)} {xs ys : List (Nat × β)}

theorem fst_le_trans (a b c : Nat × β) (hab : decide (a.1 ≤ b.1) = true) (hbc : decide (b.1 ≤ c.1) = true) :
    decide (a.1 ≤ c.1) = true := by
  rw [decide_eq_true_iff] at *
  exact Nat.le_trans hab hbc

theorem fst_le_total (a b : Nat × β) : (decide (a.1 ≤ b.1) || decide (b.1 ≤ a.1)) = true := by
  simpa using Nat.le_total a.1 b.1

theorem pairwise_mergeSort_fst (xs : List (Nat × β)) :
    (xs.mergeSort fun a b => a.1 ≤ b.1).Pairwise fun a b => a.1 ≤ b.1 :=
  (List.pairwise_mergeSort fst_le_trans fst_le_total xs).imp of_decide_eq_true

/-- sorting by number keeps what has the same number in order -/
theorem filter_mergeSort_fst (xs : List (Nat × β)) (n : Nat) :
    (xs.mergeSort fun a b => a.1 ≤ b.1).filter (·.1 = n) = xs.filter (·.1 = n) := by
  have hsorted : (xs.filter (·.1 = n)).Pairwise fun a b => decide (a.1 ≤ b.1) = true := by
    refine List.pairwise_of_forall_mem_list fun a ha b hb => ?_
    have ha := of_decide_eq_true (List.mem_filter.1 ha).2
    have hb := of_decide_eq_true (List.mem_filter.1 hb).2
    exact decide_eq_true (Nat.le_of_eq (ha.trans hb.symm))
  have hsub := (List.sublist_mergeSort fst_le_trans fst_le_total hsorted List.filter_sublist).filter (·.1 = n)
  rw [List.filter_filter] at hsub
  simp only [Bool.and_self] at hsub
  exact (hsub.eq_of_length ((List.mergeSort_perm _ _).filter _).length_eq.symm).symm

theorem mem_iff_of_filter_fst (h : ∀ n, xs.filter (·.1 = n) = ys.filter (·.1 = n)) (z : Nat × β) : z ∈ xs ↔ z ∈ ys := by
  have hz : z ∈ xs.filter (·.1 = z.1) ↔ z ∈ ys.filter (·.1 = z.1) := by rw [h]
  simpa using hz

/-- lists that increase by number are equal when they have the same at each number -/
theorem eq_of_filter_fst (hxs : xs.Pairwise fun a b => a.1 ≤ b.1) (hys : ys.Pairwise fun a b => a.1 ≤ b.1)
    (h : ∀ n, xs.filter (·.1 = n) = ys.filter (·.1 = n)) : xs = ys := by
  induction xs generalizing ys with
  | nil => exact (List.eq_nil_iff_forall_not_mem.2 fun z hz => List.not_mem_nil ((mem_iff_of_filter_fst h z).2 hz)).symm
  | cons x xs ih =>
    have hmem := mem_iff_of_filter_fst h
    cases ys with
    | nil => exact absurd ((hmem x).1 List.mem_cons_self) List.not_mem_nil
    | cons y ys =>
      obtain ⟨hx, hxrest⟩ := List.pairwise_cons.1 hxs
      obtain ⟨hy, hyrest⟩ := List.pairwise_cons.1 hys
      have hnumber : x.1 = y.1 := by
        apply Nat.le_antisymm
        · rcases List.mem_cons.1 ((hmem y).2 List.mem_cons_self) with rfl | hmem
          · exact Nat.le_refl _
          · exact hx y hmem
        · rcases List.mem_cons.1 ((hmem x).1 List.mem_cons_self) with rfl | hmem
          · exact Nat.le_refl _
          · exact hy x hmem
      obtain ⟨rfl, -⟩ : x = y ∧ xs.filter (·.1 = x.1) = ys.filter (·.1 = x.1) := by
        simpa [hnumber] using h x.1
      have hrest : ∀ n, xs.filter (·.1 = n) = ys.filter (·.1 = n) := by
        intro n
        by_cases hn : x.1 = n
        · simpa [hn] using h n
        · simpa [hn] using h n
      rw [ih hxrest hyrest hrest]

/-- items with numbers of their own are at each number the same in any order -/
theorem filter_fst_of_perm (h : as.Perm bs) (hlt : bs.Pairwise fun a b => a.1 < b.1) (n : Nat) :
    as.filter (·.1 = n) = bs.filter (·.1 = n) := by
  have hperm := h.filter (·.1 = n)
  cases hbs : bs.filter (·.1 = n) with
  | nil =>
    rw [hbs] at hperm
    exact List.perm_nil.1 hperm
  | cons b rest =>
    -- no other item has this number
    obtain rfl : rest = [] := by
      refine List.eq_nil_iff_forall_not_mem.2 fun b' hb' => ?_
      have hnumber : ∀ c ∈ b :: rest, c.1 = n := by
        intro c hc
        rw [← hbs] at hc
        exact of_decide_eq_true (List.mem_filter.1 hc).2
      have hpairwise := hlt.filter (·.1 = n)
      rw [hbs] at hpairwise
      have hbb' := (List.pairwise_cons.1 hpairwise).1 b' hb'
      rw [hnumber b List.mem_cons_self, hnumber b' (List.mem_cons_of_mem _ hb')] at hbb'
      exact Nat.lt_irrefl n hbb'
    rw [hbs] at hperm
    exact List.perm_singleton.1 hperm

variable {f : Nat × α → List (Nat × β)}

theorem filter_flatMap_fst (hf : ∀ a, ∀ b ∈ f a, b.1 = a.1) (as : List (Nat × α)) (n : Nat) :
    (as.flatMap f).filter (·.1 = n) = (as.filter (·.1 = n)).flatMap f := by
  induction as with
  | nil => rfl
  | cons a as ih =>
    rw [List.flatMap_cons, List.filter_append, ih]
    by_cases ha : a.1 = n
    · have hall : (f a).filter (·.1 = n) = f a :=
        List.filter_eq_self.2 fun b hb => decide_eq_true ((hf a b hb).trans ha)
      simp [ha, hall]
    · have hnone : (f a).filter (·.1 = n) = [] :=
        List.filter_eq_nil_iff.2 fun b hb heq => ha ((hf a b hb).symm.trans (of_decide_eq_true heq))
      simp [ha, hnone]

/-- **Sorting by number.** What comes from items with numbers of their own, in any order, is sorted into the order of
the numbers. -/
theorem mergeSort_flatMap_of_perm (hf : ∀ a, ∀ b ∈ f a, b.1 = a.1) (h : as.Perm bs)
    (hlt : bs.Pairwise fun a b => a.1 < b.1) : ((as.flatMap f).mergeSort fun a b => a.1 ≤ b.1) = bs.flatMap f := by
  apply eq_of_filter_fst (pairwise_mergeSort_fst _)
  · refine List.pairwise_flatMap.2 ⟨fun a _ => ?_, hlt.imp fun {a b} hab x hx y hy => ?_⟩
    · refine List.pairwise_of_forall_mem_list fun x hx y hy => ?_
      exact Nat.le_of_eq ((hf a x hx).trans (hf a y hy).symm)
    · rw [hf a x hx, hf b y hy]
      exact Nat.le_of_lt hab
  · intro n
    rw [filter_mergeSort_fst, filter_flatMap_fst hf, filter_flatMap_fst hf, filter_fst_of_perm h hlt]

end

/-! ## Groups -/

/-- what is added at a key is added to all values of the map -/
theorem CharMap.perm_flatMap_update {β : Type} (m : CharMap (List β)) (c : Char) (vs : List β) :
    ((m.update c (·.getD [] ++ vs)).entries.flatMap Prod.snd).Perm (m.entries.flatMap Prod.snd ++ vs) := by
  obtain ⟨l, hl⟩ := m
  simp only [update]
  clear hl
  induction l with
  | nil => simp [updateEntries]
  | cons e rest ih =>
    obtain ⟨d, v⟩ := e
    rw [updateEntries]
    split
    · have hcomm := @List.perm_append_comm _ vs (v ++ rest.flatMap Prod.snd)
      simpa using hcomm
    · split
      · simp only [List.flatMap_cons, Option.getD_some, List.append_assoc]
        exact List.perm_append_comm.append_left v
      · simp only [List.flatMap_cons, List.append_assoc]
        exact ih.append_left v

namespace Source

/-- a definition without the nonterminal that it defines -/
def Definition.body (d : Definition) : Nat × Alternatives := (d.line, d.rule.alternatives)

/-- **Groups.** Together the groups hold the definitions. -/
theorem perm_flatMap_groups (defs : List Definition) :
    ((groups defs).entries.flatMap Prod.snd).Perm (defs.map Definition.body) := by
  have hfold : ∀ m : CharMap (List (Nat × Alternatives)),
      ((defs.foldl (fun m d =>
        m.update d.rule.nonterminal (·.getD [] ++ [(d.line, d.rule.alternatives)])) m).entries.flatMap Prod.snd).Perm
        (m.entries.flatMap Prod.snd ++ defs.map Definition.body) := by
    induction defs with
    | nil => simp
    | cons d defs ih =>
      intro m
      rw [List.foldl_cons, List.map_cons]
      refine (ih _).trans ?_
      refine ((m.perm_flatMap_update _ _).append_right _).trans ?_
      rw [List.append_assoc]
      exact .refl _
  exact hfold ∅

/-- the undefined uses in one definition, each with the line -/
def undefinedIn (defined : List Char) (d : Nat × Alternatives) : List (Nat × Char) :=
  ((uses d.2).filter (· ∉ defined)).map (d.1, ·)

theorem undefinedIn_congr {defined defined' : List Char} (h : ∀ n, n ∈ defined ↔ n ∈ defined') :
    undefinedIn defined = undefinedIn defined' := by
  funext d
  simp only [undefinedIn, h]

/-- **Undefined references.** In whatever order the groups of a text come, the references are those of the definitions
in turn. -/
theorem undefinedReferences_of_perm {defs : List Definition} {gs : List Group}
    (hlt : defs.Pairwise fun a b => a.line < b.line) (h : gs.Perm (groups defs).entries) :
    undefinedReferences gs = (defs.map Definition.body).flatMap (undefinedIn (defs.map (·.rule.nonterminal))) := by
  have hdefined : undefinedIn (gs.map Prod.fst) = undefinedIn (defs.map (·.rule.nonterminal)) := by
    apply undefinedIn_congr
    intro n
    rw [(h.map Prod.fst).mem_iff, mem_keys_groups]
  have huses : gs.flatMap (undefinedUses (gs.map Prod.fst)) =
      (gs.flatMap Prod.snd).flatMap (undefinedIn (defs.map (·.rule.nonterminal))) := by
    rw [List.flatMap_assoc, ← hdefined]
    rfl
  rw [undefinedReferences, huses, mergeSort_flatMap_of_perm]
  · intro d u hu
    obtain ⟨n, -, rfl⟩ := List.mem_map.1 hu
    rfl
  · exact (h.flatMap_right _).trans (perm_flatMap_groups defs)
  · exact List.pairwise_map.2 hlt

end Source

end SimpleGrammar
