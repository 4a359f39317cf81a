/-
References to nonterminals that no line defines.

- `find?_groups`: the group of a nonterminal is what its lines add.
- `mem_undefinedReferences_iff`: the undefined references are the uses of what no line defines.
- `undefinedReferences_eq_nil_iff`: there are none when the rules define all that they use.
-/
import SimpleGrammar.Proofs.Grammar.Definitions
import SimpleGrammar.Source.References

namespace SimpleGrammar

namespace Source

theorem mem_uses_iff {alts : Alternatives} {n : Char} : n ∈ uses alts ↔ ∃ r ∈ alts, Symbol.nonterminal n ∈ r := by
  rw [uses, List.mem_filterMap]
  constructor
  · rintro ⟨x, hx, hn⟩
    cases x with
    | terminal c => cases hn
    | nonterminal m =>
      cases hn
      exact List.mem_flatten.1 hx
  · rintro ⟨r, hr, hn⟩
    exact ⟨.nonterminal n, List.mem_flatten.2 ⟨r, hr, hn⟩, rfl⟩

/-- a nonterminal's group is what its lines add -/
theorem find?_groups (defs : List Definition) (n : Char) :
    (groups defs).find? n =
      if n ∈ defs.map (·.rule.nonterminal) then
        some ((defs.filter (·.rule.nonterminal = n)).flatMap fun d => [(d.line, d.rule.alternatives)])
      else none := by
  rw [groups, CharMap.find?_foldl_update]
  rfl

theorem mem_keys_groups {defs : List Definition} {n : Char} :
    n ∈ (groups defs).entries.map Prod.fst ↔ n ∈ defs.map (·.rule.nonterminal) := by
  have hkeys : n ∈ (groups defs).entries.map Prod.fst ↔ ((groups defs).find? n).isSome := CharMap.mem_keys_iff
  rw [hkeys, find?_groups]
  split
  · next h => exact iff_of_true rfl h
  · next h => exact iff_of_false (by simp) h

theorem mem_undefinedUses_iff {defined : List Char} {group : Group} {line : Nat} {n : Char} :
    (line, n) ∈ undefinedUses defined group ↔ ∃ alts, (line, alts) ∈ group.2 ∧ n ∈ uses alts ∧ n ∉ defined := by
  simp only [undefinedUses, List.mem_flatMap, List.mem_map, List.mem_filter, decide_eq_true_iff, Prod.mk.injEq]
  constructor
  · rintro ⟨d, hd, m, hm, rfl, rfl⟩
    exact ⟨d.2, hd, hm⟩
  · rintro ⟨alts, hd, hn⟩
    exact ⟨_, hd, n, hn, rfl, rfl⟩

/-- **Undefined references.** Sorting and grouping leave no trace: they are the uses, in the lines, of what no line
defines. -/
theorem mem_undefinedReferences_iff {defs : List Definition} {line : Nat} {n : Char} :
    (line, n) ∈ undefinedReferences (groups defs).entries ↔
      ∃ d ∈ defs, d.line = line ∧ n ∈ uses d.rule.alternatives ∧ n ∉ defs.map (·.rule.nonterminal) := by
  simp only [undefinedReferences, List.mem_mergeSort, List.mem_flatMap, mem_undefinedUses_iff, mem_keys_groups]
  constructor
  · rintro ⟨⟨m, ds⟩, hgroup, alts, hds, huse⟩
    have hfind := CharMap.mem_entries_iff.1 hgroup
    rw [find?_groups] at hfind
    split at hfind
    · cases hfind
      obtain ⟨d, hd, heq⟩ := List.mem_flatMap.1 hds
      cases List.mem_singleton.1 heq
      exact ⟨d, (List.mem_filter.1 hd).1, rfl, huse⟩
    · cases hfind
  · rintro ⟨d, hd, rfl, huse⟩
    have hkey : d.rule.nonterminal ∈ defs.map (·.rule.nonterminal) := List.mem_map_of_mem hd
    refine ⟨⟨_, _⟩, CharMap.mem_entries_iff.2 ((find?_groups defs _).trans (if_pos hkey)), d.rule.alternatives, ?_,
      huse⟩
    exact List.mem_flatMap.2 ⟨d, List.mem_filter.2 ⟨hd, decide_eq_true rfl⟩, List.mem_singleton.2 rfl⟩

/-- the rules define every nonterminal that they use -/
def Closed (rules : List RuleLine) : Prop :=
  ∀ rule ∈ rules, ∀ r ∈ rule.alternatives, ∀ n, .nonterminal n ∈ r → n ∈ rules.map (·.nonterminal)

theorem undefinedReferences_eq_nil_iff {defs : List Definition} :
    undefinedReferences (groups defs).entries = [] ↔ Closed (defs.map (·.rule)) := by
  rw [List.eq_nil_iff_forall_not_mem]
  constructor
  · intro h rule hrule r hr n hn
    obtain ⟨d, hd, rfl⟩ := List.mem_map.1 hrule
    by_contra hnot
    rw [List.map_map] at hnot
    exact h (d.line, n) (mem_undefinedReferences_iff.2 ⟨d, hd, rfl, mem_uses_iff.2 ⟨r, hr, hn⟩, hnot⟩)
  · intro h e he
    obtain ⟨d, hd, -, huse, hnot⟩ := mem_undefinedReferences_iff.1 he
    obtain ⟨r, hr, hn⟩ := mem_uses_iff.1 huse
    have hdefined := h d.rule (List.mem_map_of_mem hd) r hr _ hn
    rw [List.map_map] at hdefined
    exact hnot hdefined

end Source

end SimpleGrammar
