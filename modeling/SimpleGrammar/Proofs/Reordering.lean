/-
Alternatives in another order.

The order of a nonterminal's alternatives decides which of two that begin alike is reported, and which of them is
taken. It does not decide how much is reported, and when nothing is, it does not decide what is recognized.

- `length_violationsFrom`: what a check reports is what each alternative offends against by itself, and one overlap for
  every first symbol that has been seen before.
- `map_fst_select_of_perm`: of alternatives that begin differently the same one is selected in every order.
- `sameMove_of_reordered`: two simple grammars that differ in the order only make the same move in every
  configuration, so they run in step (`sameVerdict_of_reordered`).
- `check_and_derive_of_reordered`: the verdicts of the check and of the recognizer.
-/
import Mathlib
import SimpleGrammar.Proofs.Recognition.Language
import SimpleGrammar.Proofs.Simplicity.Violations

namespace SimpleGrammar

variable {n c : Char} {alts alts' : Alternatives} {g h : Grammar}

/-! ## How much is reported -/

/-- **The number of offences.** Each alternative offends as often as it does by itself. Its first symbol is seen for the
first time, or it is one more offence. -/
theorem length_violationsFrom (n : Char) (seen : List Symbol) (alts : Alternatives) :
    (violationsFrom n seen alts).length + (seen ++ alts.filterMap List.head?).toFinset.card =
      (alts.map fun r => (r.offences n []).length).sum + (alts.filterMap List.head?).length + seen.toFinset.card := by
  induction alts generalizing seen with
  | nil => simp [violationsFrom]
  | cons r rest ih =>
    cases r with
    | nil =>
      -- an empty alternative is one offence, and no symbol is seen
      have hself : (Rhs.offences n [] []).length = 1 := rfl
      have hrest := ih seen
      simp only [violationsFrom, List.filterMap_cons, List.head?_nil, List.map_cons, List.sum_cons, List.length_cons,
        hself]
      omega
    | cons first tail =>
      have hself : (Rhs.offences n [] (first :: tail)).length = (shapeViolation n (first :: tail)).toList.length := by
        have hnone : ∀ x : Symbol, x ∈ [] ↔ ∃ q ∈ ([] : Alternatives), q.head? = some x := by simp
        rw [offences_eq_of_head? rfl hnone]
        simp
      have hseen : (seen ++ first :: rest.filterMap List.head?).toFinset =
          (first :: seen ++ rest.filterMap List.head?).toFinset := by
        apply List.toFinset_eq_of_perm
        exact List.perm_middle
      have hrest := ih (first :: seen)
      simp only [violationsFrom, List.filterMap_cons, List.head?_cons, List.map_cons, List.sum_cons, List.length_append,
        List.length_cons, hself, hseen]
      by_cases hfirst : first ∈ seen
      · have hcard : (first :: seen).toFinset.card = seen.toFinset.card := by simp [hfirst]
        rw [if_pos hfirst, List.length_singleton]
        omega
      · have hcard : (first :: seen).toFinset.card = seen.toFinset.card + 1 := by simp [hfirst]
        rw [if_neg hfirst, List.length_nil]
        omega

/-- the alternatives of a nonterminal offend equally often in every order -/
theorem length_offences_of_perm (hperm : alts.Perm alts') : (alts.offences n).length = (alts'.offences n).length := by
  have hfirst := hperm.filterMap List.head?
  have hself := (hperm.map fun r => (r.offences n []).length).sum_eq
  have hlength := hfirst.length_eq
  have hseen := congrArg Finset.card (List.toFinset_eq_of_perm _ _ hfirst)
  have hcount := length_violationsFrom n [] alts
  have hcount' := length_violationsFrom n [] alts'
  simp only [violationsFrom_nil_eq_offences, List.nil_append] at hcount hcount'
  omega

-- the same two alternatives, of which the other one is reported
example : Alternatives.offences 'S' [.ofText ['a'], .ofText ['a', 'B']] =
      [.selectionOverlap 'S' (.ofText ['a', 'B']) (.terminal 'a')] ∧
    Alternatives.offences 'S' [.ofText ['a', 'B'], .ofText ['a']] =
      [.selectionOverlap 'S' (.ofText ['a']) (.terminal 'a')] := by decide

/-! ## What is selected -/

theorem map_fst_select : (select alts c).map Prod.fst = alts.find? (·.head? = some (.terminal c)) := by
  conv_rhs => rw [← List.zipIdx_map_fst 0 alts, List.find?_map]
  rfl

/-- of alternatives that begin differently the same one is selected in every order -/
theorem map_fst_select_of_perm (hperm : alts.Perm alts') (hdistinct : (alts.map List.head?).Nodup) :
    (select alts c).map Prod.fst = (select alts' c).map Prod.fst := by
  rw [map_fst_select, map_fst_select]
  apply List.find?_eq_find?_of_perm hperm
  intro r hr q hq
  simp only [decide_eq_true_eq] at hr hq
  apply List.inj_on_of_nodup_map hdistinct hr.1 hq.1
  rw [hr.2, hq.2]

/-! ## Grammars in another order -/

namespace Grammar

/-- the same nonterminals are defined in both grammars, and have the same alternatives in whatever order -/
def Reordered (g h : Grammar) : Prop := ∀ n, Option.Rel List.Perm (g.alternatives? n) (h.alternatives? n)

namespace Reordered

theorem perm_getD (hgh : g.Reordered h) (n : Char) :
    ((g.alternatives? n).getD []).Perm ((h.alternatives? n).getD []) := by
  have hn := hgh n
  generalize g.alternatives? n = a, h.alternatives? n = b at hn
  cases hn with
  | none => rfl
  | some hperm => exact hperm

theorem nonterminals_eq (hgh : g.Reordered h) : g.nonterminals = h.nonterminals := by
  apply g.pairwise_nonterminals.eq_of_mem_iff h.pairwise_nonterminals
  intro n
  rw [mem_nonterminals_iff, mem_nonterminals_iff]
  have hn := hgh n
  generalize g.alternatives? n = a, h.alternatives? n = b at hn
  cases hn <;> rfl

theorem length_violations (hgh : g.Reordered h) : g.violations.length = h.violations.length := by
  rw [violations_eq_flatMap, violations_eq_flatMap, hgh.nonterminals_eq, List.length_flatMap, List.length_flatMap]
  simp only [length_offences_of_perm (hgh.perm_getD _)]

/-- when one of the grammars is simple the same alternative is selected in both -/
theorem map_fst_select (hgh : g.Reordered h) (hg : g.isSimple = true) (n c : Char) :
    (select ((g.alternatives? n).getD []) c).map Prod.fst = (select ((h.alternatives? n).getD []) c).map Prod.fst := by
  apply map_fst_select_of_perm (hgh.perm_getD n)
  cases halts : g.alternatives? n with
  | none => simp
  | some alts => exact (isSimple_iff.1 hg n alts halts).distinct

end Reordered

end Grammar

/-! ## Runs in step -/

/-- two steps that replace the same nonterminal by the same alternative, each by the number it has in its own grammar -/
def SameStep (g h : Grammar) (s t : Step) : Prop := s.nonterminal = t.nonterminal ∧ ∃ r, g.Rule s r ∧ h.Rule t r

/-- two moves that are the same but for the number of the alternative -/
def SameMove (g h : Grammar) : Move → Move → Prop
  | .expand s r k, m => ∃ t, SameStep g h s t ∧ m = .expand t r k
  | m, m' => m' = m

/-- the same rejection, or derivations of the same steps in the same order -/
inductive SameVerdict (g h : Grammar) : Except Rejection Derivation → Except Rejection Derivation → Prop
  | error (r : Rejection) : SameVerdict g h (.error r) (.error r)
  | ok {d e : Derivation} (hde : List.Forall₂ (SameStep g h) d e) : SameVerdict g h (.ok d) (.ok e)

theorem SameVerdict.map_cons {x y : Except Rejection Derivation} {s t : Step} (hst : SameStep g h s t)
    (hxy : SameVerdict g h x y) : SameVerdict g h (x.map (s :: ·)) (y.map (t :: ·)) := by
  cases hxy with
  | error r => exact .error r
  | ok hde => exact .ok (.cons hst hde)

/-- **One move.** In every configuration both grammars do the same. -/
theorem sameMove_of_reordered (hgh : g.Reordered h) (hg : g.isSimple = true) (k : Config) :
    SameMove g h (k.move g) (k.move h) := by
  obtain ⟨stack, rest, p⟩ := k
  rcases stack with _ | ⟨t | n, below⟩ <;> rcases rest with _ | ⟨c, rest⟩ <;> simp only [Config.move]
  · rfl
  · rfl
  · rfl
  · split <;> rfl
  · rfl
  · have hsame := hgh.map_fst_select hg n c
    cases hs : select ((g.alternatives? n).getD []) c with
    | none =>
      have ht : select ((h.alternatives? n).getD []) c = none := by simpa [hs] using hsame.symm
      rw [ht]
      rfl
    | some a =>
      obtain ⟨r, i⟩ := a
      obtain ⟨j, ht⟩ : ∃ j, select ((h.alternatives? n).getD []) c = some (r, j) := by
        simpa [hs] using hsame.symm
      have hr : g.Rule ⟨n, i⟩ r := (leadingRule_iff_select.2 hs).1.1
      have hr' : h.Rule ⟨n, j⟩ r := (leadingRule_iff_select.2 ht).1.1
      rw [ht]
      exact ⟨⟨n, j⟩, ⟨rfl, r, hr, hr'⟩, rfl⟩

/-- **Whole runs.** From the same configuration both grammars come to the same verdict. -/
theorem sameVerdict_of_reordered (hgh : g.Reordered h) (hg : g.isSimple = true) (k : Config) :
    SameVerdict g h (runFrom g k) (runFrom h k) := by
  fun_induction runFrom g k with
  | case1 k hk =>
    have hmove := sameMove_of_reordered hgh hg k
    rw [hk] at hmove
    rw [runFrom_of_accept hmove]
    exact .ok .nil
  | case2 k r hk =>
    have hmove := sameMove_of_reordered hgh hg k
    rw [hk] at hmove
    rw [runFrom_of_reject hmove]
    exact .error r
  | case3 k next hk ih =>
    have hmove := sameMove_of_reordered hgh hg k
    rw [hk] at hmove
    rw [runFrom_of_advance hmove]
    exact ih
  | case4 k s r next hk ih =>
    have hmove := sameMove_of_reordered hgh hg k
    rw [hk] at hmove
    obtain ⟨t, hst, hmove⟩ := hmove
    rw [runFrom_of_expand hmove]
    exact ih.map_cons hst

/-! ## Verdicts -/

/-- **The order does not matter.** When two grammars differ only in the order of the alternatives of each nonterminal,
a check lets both through or neither, and reports equally much of both. When it lets them through, every input is
rejected by both for the same reason, or both derive it by the same alternatives of the same nonterminals in the same
order. -/
theorem check_and_derive_of_reordered (hgh : g.Reordered h) (origin : Location) :
    (g.check origin = [] ↔ h.check origin = []) ∧
    (g.check origin).length = (h.check origin).length ∧
    (g.check origin = [] →
      ∀ (w : List Char) (start : Char), SameVerdict g h (g.derive w start) (h.derive w start)) := by
  have hlength : (g.check origin).length = (h.check origin).length := by
    unfold Grammar.check
    rw [List.length_map, List.length_map, hgh.length_violations]
  refine ⟨?_, hlength, ?_⟩
  · rw [← List.length_eq_zero_iff, ← List.length_eq_zero_iff, hlength]
  · intro hcheck w start
    exact sameVerdict_of_reordered hgh (Grammar.check_eq_nil_iff.1 hcheck) (.initial start w)

/-- `S -> c | aB` and `B -> b | aB` -/
def rightLinearReordered : Grammar := .ofRules [('S', ["c", "aB"]), ('B', ["b", "aB"])]

/-- `aab` is derived by the same alternatives under other numbers, and `aa` is rejected for the same reason -/
theorem check_and_derive_rightLinear :
    rightLinear.Reordered rightLinearReordered ∧ rightLinear.check Grammar.unnamed = [] ∧
      rightLinear.derive ['a', 'a', 'b'] 'S' = .ok [⟨'S', 0⟩, ⟨'B', 0⟩, ⟨'B', 1⟩] ∧
      rightLinearReordered.derive ['a', 'a', 'b'] 'S' = .ok [⟨'S', 1⟩, ⟨'B', 1⟩, ⟨'B', 0⟩] ∧
      SameVerdict rightLinear rightLinearReordered (.ok [⟨'S', 0⟩, ⟨'B', 0⟩, ⟨'B', 1⟩])
        (.ok [⟨'S', 1⟩, ⟨'B', 1⟩, ⟨'B', 0⟩]) ∧
      SameVerdict rightLinear rightLinearReordered (.error (.inputExhausted (.nonterminal 'B')))
        (rightLinearReordered.derive ['a', 'a'] 'S') := by
  have hreordered : rightLinear.Reordered rightLinearReordered := by
    intro n
    unfold rightLinear rightLinearReordered Grammar.ofRules
    rw [Grammar.alternatives?_ofDefinitions, Grammar.alternatives?_ofDefinitions]
    by_cases hs : n = 'S'
    · subst hs
      exact .some (by decide)
    · by_cases hb : n = 'B'
      · subst hb
        exact .some (by decide)
      · rw [if_neg (by simp [hs, hb]), if_neg (by simp [hs, hb])]
        exact .none
  have hcheck : rightLinear.check Grammar.unnamed = [] := by decide
  have hrun : rightLinear.derive ['a', 'a', 'b'] 'S' = .ok [⟨'S', 0⟩, ⟨'B', 0⟩, ⟨'B', 1⟩] := by cbv
  have hrun' : rightLinearReordered.derive ['a', 'a', 'b'] 'S' = .ok [⟨'S', 1⟩, ⟨'B', 1⟩, ⟨'B', 0⟩] := by cbv
  have hreject : rightLinear.derive ['a', 'a'] 'S' = .error (.inputExhausted (.nonterminal 'B')) := by cbv
  obtain ⟨-, -, hsame⟩ := check_and_derive_of_reordered hreordered Grammar.unnamed
  have hderived := hsame hcheck ['a', 'a', 'b'] 'S'
  have hrejected := hsame hcheck ['a', 'a'] 'S'
  rw [hrun, hrun'] at hderived
  rw [hreject] at hrejected
  exact ⟨hreordered, hcheck, hrun, hrun', hderived, hrejected⟩

end SimpleGrammar
