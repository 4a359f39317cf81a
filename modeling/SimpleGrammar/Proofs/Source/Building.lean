/-
Grammars built and grammars read.

A grammar that is built from definitions, each a nonterminal with the texts of its alternatives, is the grammar that
is loaded from one rule line for each definition, in the same order. Both ways a nonterminal may be defined many times
and may have no alternative, and ε may be written, left out between two bars or given by an empty text.

- `read_definitionLine`: the line of a definition is read as the rule that the builder makes of it.
- `closed_of_stateable`: the rules define all that they use.
- `loadText_eq_ofRules`: what the lines are loaded as.
-/
import SimpleGrammar.Proofs.Source.Loading
import SimpleGrammar.Proofs.Source.RuleText

namespace SimpleGrammar

namespace Source

/-- definitions that rule lines can state -/
structure Stateable (defs : List (Char × List String)) : Prop where
  /-- the nonterminals are characters that are read as nonterminals -/
  key : ∀ d ∈ defs, Symbol.ofChar d.1 = .nonterminal d.1
  texts : ∀ d ∈ defs, ∀ text ∈ d.2, IsRuleText text.toList
  /-- a single empty text would be read as no alternative -/
  alone : ∀ d ∈ defs, d.2 ≠ [""]
  /-- each nonterminal in a text has a definition -/
  defined : ∀ d ∈ defs, ∀ text ∈ d.2, ∀ c ∈ text.toList, Symbol.ofChar c = .nonterminal c → c ∈ defs.map Prod.fst

/-- the rule line that states a definition, without a line end -/
def definitionLine (d : Char × List String) : List Char := lineOf d.1 (d.2.map String.toList)

/-- the rule that a definition makes -/
def builtRule (d : Char × List String) : RuleLine := ⟨d.1, d.2.map fun text => Rhs.ofText text.toList⟩

variable {defs : List (Char × List String)} {d : Char × List String}

theorem Stateable.isUppercase (h : Stateable defs) (hd : d ∈ defs) : Text.isUppercase d.1 = true :=
  Symbol.ofChar_eq_nonterminal_iff.1 (h.key d hd)

theorem Stateable.isRuleText (h : Stateable defs) (hd : d ∈ defs) : ∀ text ∈ d.2.map String.toList, IsRuleText text :=
  List.forall_mem_map.2 (h.texts d hd)

/-- **A definition read.** Its line is read as the rule that is built from it. -/
theorem read_definitionLine (h : Stateable defs) (hd : d ∈ defs) :
    RuleLine.read (definitionLine d) = .ok (builtRule d) := by
  have halone : d.2.map String.toList ≠ [[]] := by
    intro hempty
    obtain ⟨text, htexts, htext⟩ := List.map_eq_singleton_iff.1 hempty
    rw [String.toList_eq_nil_iff.1 htext] at htexts
    exact h.alone d hd htexts
  rw [definitionLine, read_lineOf (h.isUppercase hd) (h.isRuleText hd) halone, List.map_map]
  rfl

/-- the symbols of an alternative are those of the characters of its text -/
theorem mem_of_nonterminal_mem_ofText {text : List Char} {n : Char} (h : .nonterminal n ∈ Rhs.ofText text) :
    n ∈ text ∧ Symbol.ofChar n = .nonterminal n := by
  rw [Rhs.ofText] at h
  split at h
  · cases h
  · obtain ⟨c, hc, hn⟩ := List.mem_map.1 h
    have hchar := congrArg Symbol.char hn
    rw [Symbol.char_ofChar] at hchar
    obtain rfl : c = n := hchar
    exact ⟨hc, hn⟩

theorem closed_of_stateable (h : Stateable defs) : Closed (defs.map builtRule) := by
  intro rule hrule r hr n hn
  obtain ⟨d, hd, rfl⟩ := List.mem_map.1 hrule
  obtain ⟨text, htext, rfl⟩ := List.mem_map.1 hr
  obtain ⟨hmem, hrole⟩ := mem_of_nonterminal_mem_ofText hn
  rw [List.map_map]
  exact h.defined d hd text htext n hmem hrole

theorem grammarOfRules_builtRule (defs : List (Char × List String)) :
    grammarOfRules (defs.map builtRule) = Grammar.ofRules defs := by
  rw [grammarOfRules, List.map_map]
  rfl

/-- the lines of the definitions are the rule lines of the text that they make -/
theorem ruleLines_definitionLine (h : Stateable defs) :
    ruleLines ((defs.map definitionLine).flatMap (· ++ ['\n'])) = defs.map definitionLine ∧
      ruleLines (['\n'].intercalate (defs.map definitionLine)) = defs.map definitionLine := by
  have hend : ∀ c, Text.isBlank c = true → c ≠ ' ' → ∀ line ∈ defs.map definitionLine, c ∉ line := by
    intro c hblank hspace
    refine List.forall_mem_map.2 fun d hd => not_mem_lineOf (h.isUppercase hd) (fun text htext b hb => ?_) hblank hspace
    exact (h.isRuleText hd text htext).isBlank_of_mem hb
  refine ruleLines_of_forall ?_ (hend '\n' (by decide) (by decide)) (hend '\r' (by decide) (by decide))
  exact List.forall_mem_map.2 fun d hd => isRuleLine_lineOf (h.isUppercase hd) _

/-- a text whose rule lines are those of the definitions is loaded as the grammar that is built from them -/
theorem loadText_of_ruleLines (h : Stateable defs) {text : List Char} (htext : ruleLines text = defs.map definitionLine)
    (origin : String) : loadText origin text = .ok (.ofRules defs) := by
  refine loadText_eq_ok_iff.2 ⟨defs.map builtRule, ?_, closed_of_stateable h, grammarOfRules_builtRule defs⟩
  rw [htext, List.map_map, List.map_map]
  exact List.map_congr_left fun d hd => read_definitionLine h hd

/-- **Building and reading.** One rule line for each definition, with a line end after each line or only between them,
is loaded as the grammar that is built from the definitions: by declaring the nonterminals and adding the alternatives
one by one. -/
theorem loadText_eq_ofRules (origin : String) (defs : List (Char × List String)) (h : Stateable defs) :
    loadText origin ((defs.map definitionLine).flatMap (· ++ ['\n'])) = .ok (.ofRules defs) ∧
      loadText origin (['\n'].intercalate (defs.map definitionLine)) = .ok (.ofRules defs) ∧
      Grammar.ofRules defs =
        defs.foldl (fun g d =>
          d.2.foldl (fun g text => g.add d.1 (Rhs.ofText text.toList)) (g.declare d.1)) .empty := by
  obtain ⟨hended, hbetween⟩ := ruleLines_definitionLine h
  refine ⟨loadText_of_ruleLines h hended origin, loadText_of_ruleLines h hbetween origin, ?_⟩
  rw [Grammar.ofRules, Grammar.ofDefinitions_eq_foldl_add, List.foldl_map]
  simp only [List.foldl_map]

/-- Dashes and `>` next to bars, ε in its three forms, a nonterminal without alternatives and one that is defined
twice. -/
theorem loadText_eq_ofRules_dashes :
    ∃ g, loadText "sums" "S -> a- | >B |  | ε\nB -> \nS -> - | \n".toList = .ok g ∧ g.start = some 'S' ∧
      g.alternatives? 'S' = some [[.terminal 'a', .terminal '-'], [.terminal '>', .nonterminal 'B'], [], [],
        [.terminal '-'], []] ∧
      g.alternatives? 'B' = some [] := by
  have hstateable : Stateable [('S', ["a-", ">B", "", "ε"]), ('B', []), ('S', ["-", ""])] := by
    refine ⟨by decide, by decide, by decide, fun d hd text htext => List.forall_iff_forall_mem.1 ?_⟩
    revert d text
    decide
  obtain ⟨hload, -⟩ := loadText_eq_ofRules "sums" _ hstateable
  exact ⟨_, hload, by decide, by decide, by decide⟩

end Source

end SimpleGrammar
