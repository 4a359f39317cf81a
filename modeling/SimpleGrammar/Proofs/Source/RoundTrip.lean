/-
Grammars written and read back.

A grammar that text can state is written as one rule line for each nonterminal. Reading these lines gives back the
grammar, unless two terminals of an alternative make an arrow: then the text is not loaded at all.

- `grammarOfRules_listed`: the rules in the order of the lines define the grammar again.
- `ruleLines_spell`: the rule lines of the written form are the lines that were written.
- `loadText_display_of_readable`: what the written form is loaded as.
- `loadText_display_iff`: the grammars that are loaded as themselves.
-/
import Mathlib
import SimpleGrammar.Proofs.Source.Loading
import SimpleGrammar.Proofs.Source.Written

namespace SimpleGrammar

namespace Grammar

variable {g : Grammar} {n : Char}

/-! ## The order of the lines -/

theorem nodup_listed (g : Grammar) : g.listed.Nodup := by
  rw [listed]
  split
  · exact g.nodup_nonterminals
  · refine List.nodup_cons.2 ⟨fun hs => ?_, g.nodup_nonterminals.filter _⟩
    simpa using (List.mem_filter.1 hs).2

theorem mem_listed_iff (hg : g.Readable) : n ∈ g.listed ↔ n ∈ g.nonterminals := by
  rw [listed]
  split
  · exact Iff.rfl
  · next s hs =>
    have hne : g.nonterminals ≠ [] := by
      intro hnil
      rw [hg.start_eq_none hnil] at hs
      cases hs
    obtain ⟨t, ht, hst⟩ := hg.start_mem hne
    rw [hs] at hst
    cases hst
    rw [List.mem_cons, List.mem_filter]
    constructor
    · rintro (rfl | ⟨hn, -⟩)
      · exact ht
      · exact hn
    · intro hn
      by_cases hns : n = s
      · exact .inl hns
      · exact .inr ⟨hn, decide_eq_true hns⟩

/-- the start symbol's line is the first -/
theorem head?_listed (hg : g.Readable) : g.listed.head? = g.start := by
  rw [listed]
  split
  · next hs =>
    by_cases hne : g.nonterminals = []
    · rw [hne, hs]
      rfl
    · obtain ⟨s, -, hstart⟩ := hg.start_mem hne
      rw [hs] at hstart
      cases hstart
  · next s hs => exact hs.symm

/-! ## The rules of the lines -/

/-- all that is defined of `n`, as one rule -/
def ruleOf (g : Grammar) (n : Char) : Source.RuleLine := ⟨n, (g.alternatives? n).getD []⟩

theorem alternative_of_mem_ruleOf {r : Rhs} (hr : r ∈ (g.ruleOf n).alternatives) : g.Alternative r := by
  cases halts : g.alternatives? n with
  | none =>
    rw [ruleOf, halts] at hr
    cases hr
  | some alts =>
    rw [ruleOf, halts] at hr
    exact ⟨n, alts, halts, hr⟩

/-- **The lines define the grammar again.** -/
theorem grammarOfRules_listed (hg : g.Readable) : Source.grammarOfRules (g.listed.map g.ruleOf) = g := by
  have hdefs : (g.listed.map g.ruleOf).map (fun rule => (rule.nonterminal, rule.alternatives)) =
      g.listed.map fun n => (n, (g.alternatives? n).getD []) := List.map_map
  rw [Source.grammarOfRules, hdefs]
  refine ext_alternatives? ?_ fun n => ?_
  · have hkeys : (g.listed.map fun n => (n, (g.alternatives? n).getD [])).map Prod.fst = g.listed := by
      rw [List.map_map]
      exact List.map_id' _
    rw [start_ofDefinitions, hkeys, head?_listed hg]
  · rw [alternatives?_ofDefinitions_map g.nodup_listed]
    split
    · next hn =>
      obtain ⟨alts, halts⟩ := Option.isSome_iff_exists.1 (mem_nonterminals_iff.1 ((mem_listed_iff hg).1 hn))
      rw [halts, Option.getD_some]
    · next hn =>
      have hnone := mt mem_nonterminals_iff.2 (mt (mem_listed_iff hg).2 hn)
      exact (Option.not_isSome_iff_eq_none.1 hnone).symm

theorem closed_listed (hg : g.Readable) : Source.Closed (g.listed.map g.ruleOf) := by
  intro rule hrule r hr n hn
  obtain ⟨m, -, rfl⟩ := List.mem_map.1 hrule
  have hdefined := hg.defined r (alternative_of_mem_ruleOf hr) n hn
  refine List.mem_map.2 ⟨g.ruleOf n, List.mem_map_of_mem ((mem_listed_iff hg).2 hdefined), rfl⟩

theorem isUppercase_of_mem_listed (hg : g.Readable) (hn : n ∈ g.listed) : Text.isUppercase n = true :=
  Symbol.ofChar_eq_nonterminal_iff.1 (hg.key n ((mem_listed_iff hg).1 hn))

theorem readable_of_alternative (hg : g.Readable) {r : Rhs} (hr : g.Alternative r) : r.Readable := by
  intro x hx
  refine ⟨hg.role r hr x hx, ?_⟩
  cases x with
  | terminal c => exact hg.plain r hr c hx
  | nonterminal m =>
    have hm := hg.key m (hg.defined r hr m hx)
    exact Source.plain_of_isUppercase (Symbol.ofChar_eq_nonterminal_iff.1 hm)

theorem readable_ruleOf (hg : g.Readable) (n : Char) : ∀ r ∈ (g.ruleOf n).alternatives, r.Readable :=
  fun _ hr => readable_of_alternative hg (alternative_of_mem_ruleOf hr)

/-! ## The text -/

/-- **The rule lines are those that were written.** No character of a rule line is a line end, and no rule line looks
like a comment. -/
theorem ruleLines_spell (hg : g.Readable) :
    Source.ruleLines g.spell = g.listed.map fun n => Source.writtenLine n (g.ruleOf n).alternatives := by
  have hspell : g.spell =
      (g.listed.map fun n => Source.writtenLine n (g.ruleOf n).alternatives).flatMap (· ++ ['\n']) := by
    rw [spell, List.flatMap_map]
    rfl
  have hend : ∀ c, Text.isBlank c = true → c ≠ ' ' →
      ∀ line ∈ g.listed.map fun n => Source.writtenLine n (g.ruleOf n).alternatives, c ∉ line := by
    intro c hblank hspace line hline
    obtain ⟨n, hn, rfl⟩ := List.mem_map.1 hline
    refine Source.not_mem_lineOf (isUppercase_of_mem_listed hg hn) (List.forall_mem_map.2 fun r hr c hc => ?_) hblank
      hspace
    exact Source.isBlank_of_mem_spell (readable_ruleOf hg n r hr) hc
  rw [hspell]
  refine (Source.ruleLines_of_forall (List.forall_mem_map.2 fun n hn => ?_) (hend '\n' (by decide) (by decide))
    (hend '\r' (by decide) (by decide))).1
  exact Source.isRuleLine_lineOf (isUppercase_of_mem_listed hg hn) _

/-- what the written form of a grammar that text can state is loaded as: itself or, where an alternative makes an arrow,
nothing -/
theorem loadText_display_of_readable (hg : g.Readable) {origin : String} {h : Grammar} :
    Source.loadText origin g.display.toList = .ok h ↔
      (∀ r, g.Alternative r → ¬ [.terminal '-', .terminal '>'] <:+: r) ∧ h = g := by
  have hread : ∀ rules : List Source.RuleLine,
      (g.listed.map fun n => Source.RuleLine.read (Source.writtenLine n (g.ruleOf n).alternatives)) = rules.map .ok ↔
        (∀ n ∈ g.listed, ∀ r ∈ (g.ruleOf n).alternatives, r.Writable) ∧ rules = g.listed.map g.ruleOf := by
    intro rules
    refine Outcome.map_eq_map_ok_iff fun n hn rule => ?_
    exact Source.read_writtenLine_iff (isUppercase_of_mem_listed hg hn) (readable_ruleOf hg n)
  have hwritable : (∀ n ∈ g.listed, ∀ r ∈ (g.ruleOf n).alternatives, r.Writable) ↔
      ∀ r, g.Alternative r → ¬ [.terminal '-', .terminal '>'] <:+: r := by
    constructor
    · rintro hall r ⟨n, alts, halts, hr⟩
      have hn : n ∈ g.listed := (mem_listed_iff hg).2 (mem_nonterminals_iff.2 (by rw [halts]; rfl))
      refine (hall n hn r ?_).apart
      rw [ruleOf, halts]
      exact hr
    · intro hall n _ r hr
      have halt := alternative_of_mem_ruleOf hr
      exact ⟨readable_of_alternative hg halt, hall r halt⟩
  rw [display, String.toList_ofList, Source.loadText_eq_ok_iff, ruleLines_spell hg, List.map_map, ← hwritable]
  constructor
  · rintro ⟨rules, hrules, -, rfl⟩
    obtain ⟨hall, rfl⟩ := (hread rules).1 hrules
    exact ⟨hall, grammarOfRules_listed hg⟩
  · rintro ⟨hall, rfl⟩
    exact ⟨_, (hread _).2 ⟨hall, rfl⟩, closed_listed hg, grammarOfRules_listed hg⟩

/-- grammars that are their written form, read -/
structure Representable (g : Grammar) : Prop extends g.Readable where
  /-- no two terminals make an arrow -/
  apart : ∀ r, g.Alternative r → ¬ [.terminal '-', .terminal '>'] <:+: r

/-- **Written and read back.** The written form of a grammar is loaded as the same grammar exactly when the grammar is
representable. -/
theorem loadText_display_iff (origin : String) (g : Grammar) :
    Source.loadText origin g.display.toList = .ok g ↔ g.Representable := by
  constructor
  · intro h
    have hreadable := readable_of_loadText h
    exact ⟨hreadable, ((loadText_display_of_readable hreadable).1 h).1⟩
  · intro hg
    exact (loadText_display_of_readable hg.toReadable).2 ⟨hg.apart, rfl⟩

-- `S -> - >` is loaded, and the two terminals make an arrow when they are written
example : ((Source.loadText "" "S -> - >".toList).toOption.map Grammar.spell) = some "S -> ->\n".toList := by cbv

example : (Source.loadText "" "S -> ->\n".toList).isOk = false := by cbv

end Grammar

end SimpleGrammar
