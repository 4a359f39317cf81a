/-
What it means that a grammar is simple.

- `shapeViolation_eq_none_iff`: the shape that is let through is terminals with at most one nonterminal after them.
- `violationsFrom_eq_nil_iff`: the alternatives of a nonterminal are in order when none is empty, all have the shape,
  and no two begin with the same symbol.
- `isSimple_iff`: a grammar is simple when this holds of every nonterminal.
- `leadingRule_iff_of_isSimple`: the leading rules of a simple grammar are all but those that are a nonterminal alone.
-/
import Mathlib.Data.List.Nodup
import SimpleGrammar.Proofs.Derivation
import SimpleGrammar.Simplicity

namespace SimpleGrammar

/-! ## The shape of an alternative -/

/-- terminals, and at most one nonterminal after them -/
def Rhs.WellShaped (r : Rhs) : Prop := ∃ u, r = word u ∨ ∃ m, r = word u ++ [.nonterminal m]

theorem nonterminalCount_terminal_cons (c : Char) (r : List Symbol) :
    Rhs.nonterminalCount (.terminal c :: r) = Rhs.nonterminalCount r :=
  List.countP_cons_of_neg (by simp [Symbol.isNonterminal])

theorem nonterminalCount_nonterminal_cons (m : Char) (r : List Symbol) :
    Rhs.nonterminalCount (.nonterminal m :: r) = Rhs.nonterminalCount r + 1 :=
  List.countP_cons_of_pos rfl

@[simp] theorem nonterminalCount_word (u : List Char) : Rhs.nonterminalCount (word u) = 0 := by
  induction u with
  | nil => rfl
  | cons c u ih => exact (nonterminalCount_terminal_cons c _).trans ih

/-- without a nonterminal an alternative is a word -/
theorem nonterminalCount_eq_zero_iff {r : Rhs} : r.nonterminalCount = 0 ↔ ∃ u, r = word u := by
  refine ⟨fun h => ?_, fun ⟨u, hu⟩ => hu ▸ nonterminalCount_word u⟩
  induction r with
  | nil => exact ⟨[], rfl⟩
  | cons x r ih =>
    cases x with
    | terminal c =>
      obtain ⟨u, rfl⟩ := ih ((nonterminalCount_terminal_cons c r).symm.trans h)
      exact ⟨c :: u, rfl⟩
    | nonterminal m =>
      rw [nonterminalCount_nonterminal_cons] at h
      cases h

/-- whatever the last symbol is, those before it must be terminals -/
theorem shapeViolation_append_singleton {n : Char} {r : Rhs} {x : Symbol} :
    shapeViolation n (r ++ [x]) = none ↔ r.nonterminalCount = 0 := by
  have hcount : Rhs.nonterminalCount (r ++ [x]) = r.nonterminalCount + if x.isNonterminal then 1 else 0 := by
    simp [Rhs.nonterminalCount, List.countP_append, List.countP_singleton]
  simp only [shapeViolation, hcount, List.getLast?_append, List.getLast?_singleton, Option.some_or, Option.any_some]
  cases x with
  | terminal c =>
    rcases r.nonterminalCount with _ | _ | k <;> simp [Symbol.isNonterminal]
  | nonterminal m =>
    rcases r.nonterminalCount with _ | _ | k <;> simp [Symbol.isNonterminal]

theorem shapeViolation_eq_none_iff {n : Char} {r : Rhs} : shapeViolation n r = none ↔ r.WellShaped := by
  rcases List.eq_nil_or_concat r with rfl | ⟨init, x, h⟩
  · exact ⟨fun _ => ⟨[], .inl rfl⟩, fun _ => rfl⟩
  · rw [List.concat_eq_append] at h
    subst h
    rw [shapeViolation_append_singleton, nonterminalCount_eq_zero_iff]
    constructor
    · rintro ⟨u, rfl⟩
      cases x with
      | terminal c => exact ⟨u ++ [c], .inl (by simp)⟩
      | nonterminal m => exact ⟨u, .inr ⟨m, rfl⟩⟩
    · rintro ⟨u, h | ⟨m, h⟩⟩
      · obtain ⟨v, w, rfl, hv, -⟩ := List.map_eq_append_iff.1 h.symm
        exact ⟨v, hv.symm⟩
      · exact ⟨u, (List.append_inj' h rfl).1⟩

/-! ## Alternatives in order -/

/-- the alternatives of a simple grammar's nonterminal -/
structure Alternatives.InOrder (alts : Alternatives) : Prop where
  /-- none is empty -/
  nonempty : ∀ r ∈ alts, r ≠ []
  /-- all have the shape -/
  shape : ∀ r ∈ alts, r.WellShaped
  /-- no two begin with the same symbol -/
  distinct : (alts.map List.head?).Nodup

theorem violationsFrom_eq_nil_iff {n : Char} {seen : List Symbol} {alts : Alternatives} :
    violationsFrom n seen alts = [] ↔ alts.InOrder ∧ ∀ r ∈ alts, ∀ x ∈ seen, r.head? ≠ some x := by
  fun_induction violationsFrom n seen alts with
  | case1 seen => exact ⟨fun _ => ⟨⟨by simp, by simp, by simp⟩, by simp⟩, fun _ => rfl⟩
  | case2 seen rest ih => exact ⟨fun h => by simp at h, fun h => absurd rfl (h.1.nonempty [] (by simp))⟩
  | case3 seen first tail rest r ih =>
    rw [List.append_eq_nil_iff, List.append_eq_nil_iff, Option.toList_eq_nil_iff, shapeViolation_eq_none_iff, ih]
    have hfresh : (if first ∈ seen then [Violation.selectionOverlap n r first] else []) = [] ↔ first ∉ seen := by simp
    rw [hfresh]
    constructor
    · rintro ⟨⟨hshape, hfirst⟩, hrest, hseen⟩
      refine ⟨⟨?_, ?_, ?_⟩, ?_⟩
      · exact List.forall_mem_cons.2 ⟨List.cons_ne_nil _ _, hrest.nonempty⟩
      · exact List.forall_mem_cons.2 ⟨hshape, hrest.shape⟩
      · refine List.nodup_cons.2 ⟨fun hmem => ?_, hrest.distinct⟩
        obtain ⟨q, hq, heq⟩ := List.mem_map.1 hmem
        exact hseen q hq first List.mem_cons_self heq
      · refine List.forall_mem_cons.2 ⟨fun x hx heq => ?_, fun q hq x hx => hseen q hq x (List.mem_cons_of_mem _ hx)⟩
        cases heq
        exact hfirst hx
    · rintro ⟨⟨hne, hshape, hdistinct⟩, hseen⟩
      obtain ⟨hnew, hdistinct⟩ := List.nodup_cons.1 hdistinct
      obtain ⟨hr, hshape⟩ := List.forall_mem_cons.1 hshape
      obtain ⟨hfirst, hseen⟩ := List.forall_mem_cons.1 hseen
      refine ⟨⟨hr, fun hmem => hfirst first hmem rfl⟩, ⟨?_, hshape, hdistinct⟩, fun q hq x hx => ?_⟩
      · exact (List.forall_mem_cons.1 hne).2
      · rcases List.mem_cons.1 hx with rfl | hx
        · exact fun heq => hnew (List.mem_map.2 ⟨q, hq, heq⟩)
        · exact hseen q hq x hx

/-! ## Simple grammars -/

/-- **Simple grammars.** A grammar is simple when the alternatives of each nonterminal are in order. -/
theorem isSimple_iff {g : Grammar} :
    g.isSimple = true ↔ ∀ n alts, g.alternatives? n = some alts → alts.InOrder := by
  simp only [Grammar.isSimple, Grammar.violations, List.isEmpty_iff, List.flatMap_eq_nil_iff, violationsFrom_eq_nil_iff]
  constructor
  · intro h n alts halts
    exact (h (n, alts) (CharMap.mem_entries_iff.2 halts)).1
  · intro h e he
    exact ⟨h e.1 e.2 (CharMap.mem_entries_iff.1 he), by simp⟩

/-- all rules but those that are a nonterminal alone -/
def Grammar.NonunitRule (g : Grammar) : Rules := fun s r => g.Rule s r ∧ ∀ m, r ≠ [.nonterminal m]

/-- among alternatives that begin differently, one that begins with a terminal is in nobody's way -/
theorem leadingRule_of_distinct {g : Grammar} {s : Step} {r : Rhs} {alts : Alternatives} {c : Char} (hr : g.Rule s r)
    (halts : g.alternatives? s.nonterminal = some alts) (hdistinct : (alts.map List.head?).Nodup)
    (hc : r.head? = some (.terminal c)) : g.LeadingRule s r := by
  refine ⟨hr, c, hc, fun i hlt q hq hqc => ?_⟩
  have hat : ∀ {j q}, g.Rule ⟨s.nonterminal, j⟩ q → alts[j]? = some q := by
    intro j q h
    obtain ⟨alts', halts', hj⟩ := Grammar.rule_iff.1 h
    rw [halts] at halts'
    cases halts'
    exact hj
  -- two places of one first symbol are the same place
  have hi := hat hq
  have hlen := (List.getElem?_eq_some_iff.1 hi).1
  have hsame : (alts.map List.head?)[i]? = (alts.map List.head?)[s.alternative]? := by
    rw [List.getElem?_map, List.getElem?_map, hi, hat hr, Option.map_some, Option.map_some, hc, hqc]
  have := (List.getElem?_inj (by simpa using hlen) hdistinct).1 hsame
  omega

/-- in a simple grammar the rules that begin with a terminal are those that are not a nonterminal alone, and no
alternative stands in the way of another -/
theorem leadingRule_iff_of_isSimple {g : Grammar} (hg : g.isSimple = true) {s : Step} {r : Rhs} :
    g.LeadingRule s r ↔ g.NonunitRule s r := by
  constructor
  · rintro ⟨hr, c, hc, -⟩
    refine ⟨hr, fun m hm => ?_⟩
    rw [hm] at hc
    cases hc
  · rintro ⟨hr, hunit⟩
    obtain ⟨alts, halts, hi⟩ := Grammar.rule_iff.1 hr
    have hin := isSimple_iff.1 hg _ alts halts
    have hmem := List.mem_of_getElem? hi
    obtain ⟨c, hc⟩ : ∃ c, r.head? = some (.terminal c) := by
      obtain ⟨_ | ⟨c, u⟩, rfl | ⟨m, rfl⟩⟩ := hin.shape r hmem
      · exact absurd rfl (hin.nonempty _ hmem)
      · exact absurd rfl (hunit m)
      · exact ⟨c, rfl⟩
      · exact ⟨c, rfl⟩
    exact leadingRule_of_distinct hr halts hin.distinct hc

end SimpleGrammar
