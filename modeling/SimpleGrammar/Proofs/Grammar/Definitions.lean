/-
Definitions made in turn.

- `find?_foldl_update`: a key holds the values put there, in order, after what it held before.
- `alternatives?_ofDefinitions`, `start_ofDefinitions`: the grammar that a list of definitions makes.
- `ofDefinitions_eq_foldl_add`: the same grammar made of declarations and single alternatives.
- `alternatives?_ofDefinitions_map`: definitions of distinct nonterminals are the alternatives of each.
-/
import Mathlib.Data.List.Nodup
import SimpleGrammar.Grammar.Basic

namespace SimpleGrammar

/-! ## Values put together by key -/

namespace CharMap

variable {α β : Type}

/-- **Values by key.** Putting the values of a list at their keys one after the other groups them by key. -/
theorem find?_foldl_update (key : α → Char) (val : α → List β) (as : List α) (m : CharMap (List β)) (c : Char) :
    (as.foldl (fun m a => m.update (key a) (·.getD [] ++ val a)) m).find? c =
      if c ∈ as.map key then some ((m.find? c).getD [] ++ (as.filter (key · = c)).flatMap val) else m.find? c := by
  induction as generalizing m with
  | nil => rfl
  | cons a as ih =>
    rw [List.foldl_cons, ih, find?_update]
    by_cases hc : c = key a
    · subst hc
      have hmem : key a ∈ (a :: as).map key := List.mem_map_of_mem List.mem_cons_self
      have htake : (a :: as).filter (key · = key a) = a :: as.filter (key · = key a) :=
        List.filter_cons_of_pos (decide_eq_true rfl)
      rw [if_pos rfl, if_pos hmem, htake, List.flatMap_cons, ← List.append_assoc]
      by_cases hin : key a ∈ as.map key
      · rw [if_pos hin, Option.getD_some]
      · have hnone : as.filter (key · = key a) = [] := by
          refine List.filter_eq_nil_iff.2 fun b hb heq => hin ?_
          exact List.mem_map.2 ⟨b, hb, of_decide_eq_true heq⟩
        rw [if_neg hin, hnone, List.flatMap_nil, List.append_nil]
    · have hskip : (a :: as).filter (key · = c) = as.filter (key · = c) :=
        List.filter_cons_of_neg fun heq => hc (of_decide_eq_true heq).symm
      have hmem : c ∈ (a :: as).map key ↔ c ∈ as.map key := by
        rw [List.map_cons, List.mem_cons, or_iff_right hc]
      rw [if_neg hc, hskip]
      exact if_congr hmem.symm rfl rfl

end CharMap

/-! ## Grammars of definitions -/

namespace Grammar

theorem rules_foldl_define (defs : List (Char × Alternatives)) (g : Grammar) :
    (defs.foldl (fun g d => g.define d.1 d.2) g).rules =
      defs.foldl (fun m d => m.update d.1 (·.getD [] ++ d.2)) g.rules := by
  induction defs generalizing g with
  | nil => rfl
  | cons d defs ih => exact ih (g.define d.1 d.2)

/-- **Definitions put together.** The alternatives of a nonterminal are those of all its definitions, in order. -/
theorem alternatives?_ofDefinitions (defs : List (Char × Alternatives)) (n : Char) :
    (ofDefinitions defs).alternatives? n =
      if n ∈ defs.map Prod.fst then some ((defs.filter (·.1 = n)).flatMap Prod.snd) else none := by
  rw [alternatives?, ofDefinitions, rules_foldl_define, CharMap.find?_foldl_update]
  rfl

theorem start_foldl_define (defs : List (Char × Alternatives)) (g : Grammar) :
    (defs.foldl (fun g d => g.define d.1 d.2) g).start = g.start.or (defs.map Prod.fst).head? := by
  induction defs generalizing g with
  | nil => exact (Option.or_none).symm
  | cons d defs ih =>
    rw [List.foldl_cons, ih, start_define, Option.or_assoc]
    rfl

/-- the first nonterminal defined is the start symbol -/
theorem start_ofDefinitions (defs : List (Char × Alternatives)) :
    (ofDefinitions defs).start = (defs.map Prod.fst).head? := by
  rw [ofDefinitions, start_foldl_define]
  rfl

/-! ### Step by step -/

/-- two definitions of a nonterminal in a row are one -/
theorem define_define (g : Grammar) (n : Char) (added more : Alternatives) :
    (g.define n added).define n more = g.define n (added ++ more) := by
  refine ext_alternatives? ?_ fun m => ?_
  · rw [start_define, start_define, start_define, Option.or_assoc, Option.or_self]
  · by_cases hm : m = n
    · simp [alternatives?_define, hm]
    · simp [alternatives?_define, hm]

/-- alternatives that are added one after the other are added together -/
theorem foldl_add (g : Grammar) (n : Char) (rs : Alternatives) :
    rs.foldl (·.add n ·) (g.declare n) = g.define n rs := by
  have hfold : ∀ added, rs.foldl (·.add n ·) (g.define n added) = g.define n (added ++ rs) := by
    induction rs with
    | nil =>
      intro added
      rw [List.append_nil]
      rfl
    | cons r rs ih =>
      intro added
      rw [List.foldl_cons, add, define_define, ih, List.append_assoc, List.singleton_append]
  exact hfold []

/-- **Definitions step by step.** Each nonterminal is declared and then given its alternatives one after the other. -/
theorem ofDefinitions_eq_foldl_add (defs : List (Char × Alternatives)) :
    ofDefinitions defs = defs.foldl (fun g d => d.2.foldl (·.add d.1 ·) (g.declare d.1)) empty := by
  simp only [foldl_add]
  rfl

/-! ### Nonterminals and alternatives -/

theorem mem_nonterminals_iff {g : Grammar} {n : Char} : n ∈ g.nonterminals ↔ (g.alternatives? n).isSome :=
  CharMap.mem_keys_iff

theorem pairwise_nonterminals (g : Grammar) : g.nonterminals.Pairwise (· < ·) :=
  g.rules.pairwise_keys

theorem nodup_nonterminals (g : Grammar) : g.nonterminals.Nodup := g.rules.nodup_keys

theorem mem_nonterminals_ofDefinitions {defs : List (Char × Alternatives)} {n : Char} :
    n ∈ (ofDefinitions defs).nonterminals ↔ n ∈ defs.map Prod.fst := by
  rw [mem_nonterminals_iff, alternatives?_ofDefinitions]
  split
  · next h => exact iff_of_true rfl h
  · next h => exact iff_of_false (by simp) h

/-- there is a start symbol, one of the nonterminals, when there is a nonterminal -/
theorem start_ofDefinitions_cases (defs : List (Char × Alternatives)) :
    (ofDefinitions defs).nonterminals = [] ∧ (ofDefinitions defs).start = none ∨
      ∃ s ∈ (ofDefinitions defs).nonterminals, (ofDefinitions defs).start = some s := by
  cases defs with
  | nil => exact .inl ⟨rfl, rfl⟩
  | cons d defs =>
    refine .inr ⟨d.1, mem_nonterminals_ofDefinitions.2 (List.mem_map_of_mem List.mem_cons_self), ?_⟩
    rw [start_ofDefinitions]
    rfl

/-- `r` is an alternative of some nonterminal -/
def Alternative (g : Grammar) (r : Rhs) : Prop := ∃ n alts, g.alternatives? n = some alts ∧ r ∈ alts

theorem alternative_ofDefinitions_iff {defs : List (Char × Alternatives)} {r : Rhs} :
    (ofDefinitions defs).Alternative r ↔ ∃ d ∈ defs, r ∈ d.2 := by
  constructor
  · rintro ⟨n, alts, halts, hr⟩
    rw [alternatives?_ofDefinitions] at halts
    split at halts
    · cases halts
      obtain ⟨d, hd, hr⟩ := List.mem_flatMap.1 hr
      exact ⟨d, (List.mem_filter.1 hd).1, hr⟩
    · cases halts
  · rintro ⟨d, hd, hr⟩
    have hmem : d.1 ∈ defs.map Prod.fst := List.mem_map_of_mem hd
    refine ⟨d.1, _, (alternatives?_ofDefinitions defs d.1).trans (if_pos hmem), ?_⟩
    exact List.mem_flatMap.2 ⟨d, List.mem_filter.2 ⟨hd, decide_eq_true rfl⟩, hr⟩

/-- one definition for each of several nonterminals -/
theorem alternatives?_ofDefinitions_map {ns : List Char} (hns : ns.Nodup) (f : Char → Alternatives) (n : Char) :
    (ofDefinitions (ns.map fun n => (n, f n))).alternatives? n = if n ∈ ns then some (f n) else none := by
  have hkeys : (ns.map fun n => (n, f n)).map Prod.fst = ns := by
    rw [List.map_map]
    exact List.map_id' ns
  rw [alternatives?_ofDefinitions, hkeys]
  by_cases hn : n ∈ ns
  · have honce : ns.filter (· = n) = [n] := by
      rw [List.filter_eq, List.count_eq_one_of_mem hns hn]
      rfl
    have hfilter : (ns.map fun n => (n, f n)).filter (·.1 = n) = (ns.filter (· = n)).map fun n => (n, f n) :=
      List.filter_map
    rw [if_pos hn, if_pos hn, hfilter, honce]
    simp
  · rw [if_neg hn, if_neg hn]

end Grammar

end SimpleGrammar
