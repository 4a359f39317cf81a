/-
The grammar of rule lines, put together.

The grammar is made in two passes: every nonterminal is declared, and then each is given the alternatives of its
group. In a group stand the alternatives of all lines of the nonterminal, in line order, so this comes to the same as
letting every line append to the definition of its nonterminal. Each nonterminal has one group, and the order of the
groups makes no difference.

- `start_assignGroups`, `alternatives?_assignGroups_of_mem`: what the second pass does.
- `assignGroups_of_perm`: both passes are the definitions made in turn.
-/
import SimpleGrammar.Proofs.Source.References
import SimpleGrammar.Source.Load

namespace SimpleGrammar.Source

variable {defs : List Definition} {gs : List Group} {g : Grammar} {n : Char}

/-! ## The second pass -/

theorem start_assignGroups (g : Grammar) (gs : List Group) : (assignGroups g gs).start = g.start := by
  induction gs generalizing g with
  | nil => rfl
  | cons group gs ih => exact ih (g.assign group.1 (Group.alternatives group))

/-- a nonterminal without a group stays as it is -/
theorem alternatives?_assignGroups_of_not_mem (h : n ∉ gs.map Prod.fst) :
    (assignGroups g gs).alternatives? n = g.alternatives? n := by
  induction gs generalizing g with
  | nil => rfl
  | cons group gs ih =>
    obtain ⟨hne, hgs⟩ := not_or.1 (mt List.mem_cons.2 h)
    exact (ih hgs).trans ((g.alternatives?_assign ..).trans (if_neg hne))

/-- a nonterminal has the alternatives of its group, which is the only one -/
theorem alternatives?_assignGroups_of_mem (hkeys : (gs.map Prod.fst).Nodup) {lines : List (Nat × Alternatives)}
    (h : (n, lines) ∈ gs) : (assignGroups g gs).alternatives? n = some (lines.flatMap Prod.snd) := by
  induction gs generalizing g with
  | nil => cases h
  | cons group gs ih =>
    obtain ⟨hnot, hkeys⟩ := List.nodup_cons.1 hkeys
    rcases List.mem_cons.1 h with rfl | h
    · exact (alternatives?_assignGroups_of_not_mem hnot).trans ((g.alternatives?_assign ..).trans (if_pos rfl))
    · exact ih hkeys h

/-! ## Both passes -/

/-- to declare a nonterminal is to define it without alternatives -/
theorem declared_eq (defs : List Definition) :
    declared defs = .ofDefinitions (defs.map fun d => (d.rule.nonterminal, [])) := by
  rw [declared, Grammar.ofDefinitions, List.foldl_map]
  rfl

/-- **Two passes are one.** In whatever order the groups come, the grammar is the one in which every line appends its
alternatives to the definition of its nonterminal. -/
theorem assignGroups_of_perm (h : gs.Perm (groups defs).entries) :
    assignGroups (declared defs) gs = .ofDefinitions (defs.map fun d => (d.rule.nonterminal, d.rule.alternatives)) := by
  have hfst : ∀ f : Definition → Alternatives,
      (defs.map fun d => (d.rule.nonterminal, f d)).map Prod.fst = defs.map (·.rule.nonterminal) := by
    intro f
    rw [List.map_map]
    rfl
  have hkeys : (gs.map Prod.fst).Nodup := (h.map Prod.fst).nodup_iff.2 (groups defs).nodup_keys
  refine Grammar.ext_alternatives? ?_ fun n => ?_
  · rw [start_assignGroups, declared_eq, Grammar.start_ofDefinitions, Grammar.start_ofDefinitions, hfst, hfst]
  · rw [Grammar.alternatives?_ofDefinitions, hfst]
    by_cases hn : n ∈ defs.map (·.rule.nonterminal)
    · have hgroup := CharMap.mem_entries_iff.2 ((find?_groups defs n).trans (if_pos hn))
      rw [if_pos hn, alternatives?_assignGroups_of_mem hkeys (h.mem_iff.2 hgroup), List.flatMap_assoc, List.filter_map,
        List.flatMap_map]
      simp only [List.flatMap_singleton]
      rfl
    · have hnone : n ∉ gs.map Prod.fst := by rwa [(h.map Prod.fst).mem_iff, mem_keys_groups]
      rw [if_neg hn, alternatives?_assignGroups_of_not_mem hnone, declared_eq, Grammar.alternatives?_ofDefinitions,
        hfst, if_neg hn]

end SimpleGrammar.Source
