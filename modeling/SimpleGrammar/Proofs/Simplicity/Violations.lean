/-
Everything that a check reports.

A check walks through the alternatives of a nonterminal with the first symbols it has seen. What it reports can be said
without the walk: of each alternative by itself, and of those before it (`Rhs.offences`).

- `violationsFrom_eq_flatMap`: the walk reports the offences of each alternative against those before it.
- `inOrder_iff_length_selectionSet`: that no two alternatives begin alike is seen from the size of the selection set.
- `check_eq_offences`: the report of a check in full, when it is empty, and the events that go with it.
-/
import SimpleGrammar.Journal
import SimpleGrammar.Proofs.Grammar.Definitions
import SimpleGrammar.Proofs.Simplicity

namespace SimpleGrammar

variable {n : Char} {r : Rhs} {alts earlier : Alternatives} {seen : List Symbol}

/-! ## The offences of an alternative -/

namespace Rhs

def EndsInNonterminal (r : Rhs) : Prop := ∃ m, r.getLast? = some (.nonterminal m)

theorem endsInNonterminal_iff : r.EndsInNonterminal ↔ r.getLast?.any Symbol.isNonterminal = true := by
  unfold EndsInNonterminal
  cases h : r.getLast? with
  | none => simp
  | some x => cases x <;> simp [Symbol.isNonterminal]

instance (r : Rhs) : Decidable r.EndsInNonterminal := decidable_of_iff _ endsInNonterminal_iff.symm

/-- what the alternative `r` of `n` offends against when `earlier` are the alternatives before it: it is empty; or it
has two nonterminals or more, or a single one that is not at its end, and it may also begin like an earlier one -/
def offences (n : Char) (earlier : Alternatives) (r : Rhs) : List Violation :=
  match r.head? with
  | none => [.emptyRule n]
  | some first =>
    (if 2 ≤ r.nonterminalCount then [.tooManyNonterminals n r]
     else if r.nonterminalCount = 1 ∧ ¬r.EndsInNonterminal then [.misplacedNonterminal n r]
     else []) ++
    if ∃ q ∈ earlier, q.head? = some first then [.selectionOverlap n r first] else []

end Rhs

/-- the offences of the alternatives of `n` in order, each held against those before it -/
def Alternatives.offences (n : Char) (alts : Alternatives) : List Violation :=
  alts.zipIdx.flatMap fun a => a.1.offences n (alts.take a.2)

theorem toList_shapeViolation :
    (shapeViolation n r).toList =
      if 2 ≤ r.nonterminalCount then [.tooManyNonterminals n r]
      else if r.nonterminalCount = 1 ∧ ¬r.EndsInNonterminal then [.misplacedNonterminal n r]
      else [] := by
  unfold shapeViolation
  rcases r.nonterminalCount with _ | _ | k
  · simp
  · by_cases hends : r.EndsInNonterminal
    · simp [hends, Rhs.endsInNonterminal_iff.1 hends]
    · simp [hends, mt Rhs.endsInNonterminal_iff.2 hends]
  · simp

/-- the walk at one alternative that is not empty -/
theorem offences_eq_of_head? {first : Symbol} (hr : r.head? = some first)
    (hseen : ∀ x, x ∈ seen ↔ ∃ q ∈ earlier, q.head? = some x) :
    r.offences n earlier =
      (shapeViolation n r).toList ++ if first ∈ seen then [.selectionOverlap n r first] else [] := by
  simp only [Rhs.offences, hr, toList_shapeViolation, hseen]

/-- the first alternative apart from the others, which it is before -/
theorem flatMap_offences_cons :
    ((r :: alts).zipIdx.flatMap fun a => a.1.offences n (earlier ++ (r :: alts).take a.2)) =
      r.offences n earlier ++ alts.zipIdx.flatMap fun a => a.1.offences n ((earlier ++ [r]) ++ alts.take a.2) := by
  rw [List.zipIdx_cons', List.flatMap_cons, List.flatMap_map]
  simp

/-- **The walk.** When the symbols seen are those that the alternatives before begin with, the walk reports the offences
of each alternative against all before it. -/
theorem violationsFrom_eq_flatMap (hseen : ∀ x, x ∈ seen ↔ ∃ q ∈ earlier, q.head? = some x) :
    violationsFrom n seen alts = alts.zipIdx.flatMap fun a => a.1.offences n (earlier ++ alts.take a.2) := by
  induction alts generalizing seen earlier with
  | nil => rfl
  | cons r rest ih =>
    rw [flatMap_offences_cons]
    cases r with
    | nil =>
      -- an empty alternative begins with no symbol
      have hskip : ∀ x, x ∈ seen ↔ ∃ q ∈ earlier ++ [[]], q.head? = some x := by
        intro x
        rw [hseen x]
        simp
      rw [← ih hskip]
      rfl
    | cons first tail =>
      have hadd : ∀ x, x ∈ first :: seen ↔ ∃ q ∈ earlier ++ [first :: tail], q.head? = some x := by
        intro x
        calc x ∈ first :: seen
          _ ↔ x = first ∨ ∃ q ∈ earlier, q.head? = some x := by rw [List.mem_cons, hseen x]
          _ ↔ (∃ q ∈ earlier, q.head? = some x) ∨ (first :: tail).head? = some x := by simp [or_comm, eq_comm]
          _ ↔ ∃ q ∈ earlier ++ [first :: tail], q.head? = some x := by
            simp only [List.mem_append, List.mem_singleton, or_and_right, exists_or, exists_eq_left]
      rw [← ih hadd, offences_eq_of_head? rfl hseen]
      rfl

theorem violationsFrom_nil_eq_offences : violationsFrom n [] alts = alts.offences n := by
  have hseen : ∀ x : Symbol, x ∈ [] ↔ ∃ q ∈ ([] : Alternatives), q.head? = some x := by simp
  exact violationsFrom_eq_flatMap hseen

-- the first alternative has two nonterminals, and still the last one overlaps it
example : Alternatives.offences 'S' [.ofText ['A', 'B'], .ofText ['ε'], .ofText ['A', 'b']] =
    [.tooManyNonterminals 'S' (.ofText ['A', 'B']), .emptyRule 'S', .misplacedNonterminal 'S' (.ofText ['A', 'b']),
      .selectionOverlap 'S' (.ofText ['A', 'b']) (.nonterminal 'A')] := by decide

/-! ## The size of a selection set -/

theorem length_eraseDups_le {α : Type} [BEq α] (as : List α) : as.eraseDups.length ≤ as.length := by
  cases as with
  | nil => simp
  | cons a as =>
    have hrest := length_eraseDups_le (as.filter fun b => !b == a)
    have hfilter := List.length_filter_le (fun b => !b == a) as
    rw [List.eraseDups_cons, List.length_cons, List.length_cons]
    omega
termination_by as.length
decreasing_by exact Nat.lt_succ_of_le (List.length_filter_le _ _)

/-- taking repetitions away makes a list shorter if there are any -/
theorem length_eraseDups_eq_iff {α : Type} [BEq α] [LawfulBEq α] {as : List α} :
    as.eraseDups.length = as.length ↔ as.Nodup := by
  induction as with
  | nil => simp
  | cons a as ih =>
    rw [List.eraseDups_cons, List.length_cons, List.length_cons, Nat.add_right_cancel_iff, List.nodup_cons]
    by_cases hmem : a ∈ as
    · have hlt : (as.filter fun b => !b == a).length < as.length :=
        List.length_filter_lt_length_iff_exists.2 ⟨a, hmem, by simp⟩
      have hle := length_eraseDups_le (as.filter fun b => !b == a)
      exact ⟨fun h => by omega, fun h => absurd hmem h.1⟩
    · have hall : (as.filter fun b => !b == a) = as := by
        rw [List.filter_eq_self]
        intro b hb
        simpa using fun hba : b = a => hmem (hba ▸ hb)
      rw [hall, ih]
      exact ⟨fun h => ⟨hmem, h⟩, fun h => h.2⟩

theorem map_some_filterMap_head? (h : ∀ r ∈ alts, r ≠ []) :
    (alts.filterMap List.head?).map some = alts.map List.head? := by
  induction alts with
  | nil => rfl
  | cons r alts ih =>
    obtain ⟨hr, halts⟩ := List.forall_mem_cons.1 h
    cases r with
    | nil => exact absurd rfl hr
    | cons first tail => simp [ih halts]

/-- each alternative has a first symbol of its own when there are as many of these as alternatives -/
theorem length_selectionSet_eq_iff :
    (selectionSet alts).length = alts.length ↔ (∀ r ∈ alts, r ≠ []) ∧ (alts.map List.head?).Nodup := by
  have hempty : (alts.filterMap List.head?).length = alts.length ↔ ∀ r ∈ alts, r ≠ [] := by
    simp [List.filterMap_length_eq_length]
  have hnodup : (∀ r ∈ alts, r ≠ []) → ((alts.filterMap List.head?).Nodup ↔ (alts.map List.head?).Nodup) := by
    intro h
    rw [← map_some_filterMap_head? h, List.nodup_map_iff fun _ _ => Option.some.inj]
  have hle := length_eraseDups_le (alts.filterMap List.head?)
  have hle' := List.length_filterMap_le List.head? alts
  unfold selectionSet
  constructor
  · intro h
    have hne := hempty.1 (by omega)
    exact ⟨hne, (hnodup hne).1 (length_eraseDups_eq_iff.1 (by omega))⟩
  · intro h
    rw [length_eraseDups_eq_iff.2 ((hnodup h.1).2 h.2), hempty.2 h.1]

theorem inOrder_iff_length_selectionSet :
    alts.InOrder ↔ (∀ r ∈ alts, r ≠ [] ∧ r.WellShaped) ∧ (selectionSet alts).length = alts.length := by
  rw [length_selectionSet_eq_iff]
  constructor
  · intro h
    exact ⟨fun r hr => ⟨h.nonempty r hr, h.shape r hr⟩, h.nonempty, h.distinct⟩
  · intro h
    exact ⟨h.2.1, fun r hr => (h.1 r hr).2, h.2.2⟩

/-! ## The report -/

namespace Grammar

variable {g : Grammar}

theorem violations_eq_flatMap :
    g.violations = g.nonterminals.flatMap fun n => ((g.alternatives? n).getD []).offences n := by
  simp only [violations, nonterminals, CharMap.keys, List.flatMap_map]
  refine List.flatMap_congr fun e he => ?_
  rw [violationsFrom_nil_eq_offences, alternatives?, CharMap.mem_entries_iff.1 he, Option.getD_some]

theorem check_eq_nil_iff {origin : Location} : g.check origin = [] ↔ g.isSimple = true := by
  rw [check, List.map_eq_nil_iff, isSimple, List.isEmpty_iff]

/-- **The report of a check.** It lists the offences of the defined nonterminals in code-point order, those of each
alternative against the ones before it, all at the location given. It is empty, and the grammar simple, when every
alternative is terminals with at most one nonterminal after them and is not empty, and each nonterminal has as many
first symbols as alternatives. One event at debug level is emitted for each violation reported, in the same order. -/
theorem check_eq_offences (g : Grammar) (origin : Location) :
    (g.nonterminals.Pairwise (· < ·) ∧ (∀ n, n ∈ g.nonterminals ↔ (g.alternatives? n).isSome) ∧
      g.check origin =
        (g.nonterminals.flatMap fun n => ((g.alternatives? n).getD []).offences n).map (⟨origin, ·⟩)) ∧
    (g.check origin = [] ↔ g.isSimple = true) ∧
    (g.check origin = [] ↔ ∀ n alts, g.alternatives? n = some alts →
      (∀ r ∈ alts, r ≠ [] ∧ r.WellShaped) ∧ (selectionSet alts).length = alts.length) ∧
    Journal.ofCheck g = (g.check origin).map (.notSimple ·.cause) ∧
    ∀ e ∈ Journal.ofCheck g, e.level = .debug ∧ e.message = "grammar is not simple" := by
  refine ⟨⟨g.pairwise_nonterminals, fun n => mem_nonterminals_iff, ?_⟩, check_eq_nil_iff, ?_, ?_, ?_⟩
  · rw [check, violations_eq_flatMap]
  · simp only [check_eq_nil_iff, isSimple_iff, inOrder_iff_length_selectionSet]
  · simp [Journal.ofCheck, check]
  · intro e he
    obtain ⟨v, -, rfl⟩ := List.mem_map.1 he
    exact ⟨rfl, rfl⟩

end Grammar

end SimpleGrammar
