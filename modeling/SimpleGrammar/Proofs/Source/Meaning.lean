/-
What a text means.

Lines are numbered from 1, silent lines included. When some rule line is malformed, the malformed lines are what is
reported, each at its number and nothing else. Otherwise the text is loaded when its rules define all that they use,
wherever in the text they do, and then the grammar is put together from the rules in line order.

- `alternatives?_grammarOfRules`, `start_grammarOfRules`: the grammar of rules.
- `faultAt_ok_iff`: what can be wrong with a line of text.
- `loadText_faults_or_grammar`: the three outcomes of loading a text.
-/
import Mathlib
import SimpleGrammar.Proofs.Source.Faults

namespace SimpleGrammar

namespace Source

/-! ## The grammar of rules -/

theorem alternatives?_grammarOfRules (rules : List RuleLine) (n : Char) :
    (grammarOfRules rules).alternatives? n =
      if n ∈ rules.map (·.nonterminal) then some ((rules.filter (·.nonterminal = n)).flatMap (·.alternatives))
      else none := by
  rw [grammarOfRules, Grammar.alternatives?_ofDefinitions, List.map_map, List.filter_map, List.flatMap_map]
  rfl

theorem start_grammarOfRules (rules : List RuleLine) :
    (grammarOfRules rules).start = rules.head?.map (·.nonterminal) := by
  rw [grammarOfRules, Grammar.start_ofDefinitions, List.map_map, List.head?_map]
  rfl

/-! ## Malformed lines -/

/-- what is wrong with a line that is text is that it is a rule line that cannot be read -/
theorem faultAt_ok_iff {origin : String} {line : List Char} {n : Nat} {e : Located LoadError} :
    FaultAt origin (.ok line) n e ↔
      isRuleLine line = true ∧ RuleLine.read line = .error e.cause ∧ e.location = ⟨origin, n⟩ := by
  constructor
  · rintro (⟨fault, h, -⟩ | ⟨text, cause, h, hrule, hread, rfl⟩)
    · cases h
    · cases h
      exact ⟨hrule, hread, rfl⟩
  · rintro ⟨hrule, hread, hlocation⟩
    refine .inr ⟨line, e.cause, rfl, hrule, hread, ?_⟩
    rw [← hlocation]

/-- the number of a rule line among the lines -/
theorem mem_ruleLines_iff {text line : List Char} :
    line ∈ ruleLines text ↔ ∃ n, (line, n) ∈ (Text.lines '\n' '\r' text).zipIdx 1 ∧ isRuleLine line = true := by
  rw [ruleLines, List.mem_filter, ← exists_mem_zipIdx_iff, exists_and_right]

/-! ## Texts -/

/-- a text whose rule lines state these rules -/
theorem loadText_eq_ok_iff_of_rules {origin : String} {text : List Char} {rules : List RuleLine} {g : Grammar}
    (hrules : (ruleLines text).map RuleLine.read = rules.map .ok) :
    loadText origin text = .ok g ↔ Closed rules ∧ grammarOfRules rules = g := by
  rw [loadText_eq_ok_iff]
  constructor
  · rintro ⟨rules', hrules', h⟩
    rw [hrules] at hrules'
    rw [(List.map_inj_right fun _ _ => Except.ok.inj).1 hrules']
    exact h
  · intro h
    exact ⟨rules, hrules, h⟩

/-- **The meaning of a text.** A line is a rule line when its first character other than white space is there and is
no semicolon. If a rule line is malformed, the faults increase by line, they are the causes of the malformed rule
lines, each at the number of its line, and no reference is among them. Otherwise the rule lines state rules; the text
is loaded exactly when each nonterminal in their alternatives has a rule, before or after; and the grammar then starts
with the nonterminal of the first rule, defines the nonterminals of the rules, and gives each of them the alternatives
of its rules in line order. -/
theorem loadText_faults_or_grammar (origin : String) (text : List Char) :
    (∀ line, isRuleLine line = true ↔ ∃ c, line.find? (!Text.isBlank ·) = some c ∧ c ≠ ';') ∧
    ((∃ line ∈ ruleLines text, ∃ cause, RuleLine.read line = .error cause) →
      ∃ es, loadText origin text = .error es ∧
        es.Pairwise (fun a b => a.location.line < b.location.line) ∧
        (∀ e, e ∈ es ↔ ∃ line, (line, e.location.line) ∈ (Text.lines '\n' '\r' text).zipIdx 1 ∧
          isRuleLine line = true ∧ RuleLine.read line = .error e.cause ∧ e.location.file = origin) ∧
        ∀ e ∈ es, ∀ n, e.cause ≠ .undefinedNonterminal n) ∧
    ((∀ line ∈ ruleLines text, ∀ cause, RuleLine.read line ≠ .error cause) →
      ∃ rules : List RuleLine, (ruleLines text).map RuleLine.read = rules.map .ok ∧
        ((∃ g, loadText origin text = .ok g) ↔
          ∀ rule ∈ rules, ∀ r ∈ rule.alternatives, ∀ n, .nonterminal n ∈ r → ∃ other ∈ rules, other.nonterminal = n) ∧
        ∀ g, loadText origin text = .ok g →
          g.start = rules.head?.map (·.nonterminal) ∧
          (∀ n, n ∈ g.nonterminals ↔ ∃ rule ∈ rules, rule.nonterminal = n) ∧
          ∀ n ∈ g.nonterminals,
            g.alternatives? n = some ((rules.filter (·.nonterminal = n)).flatMap (·.alternatives))) := by
  refine ⟨fun line => isRuleLine_iff, ?_, ?_⟩
  · rintro ⟨line, hline, cause, hcause⟩
    obtain ⟨n, hn, hrule⟩ := mem_ruleLines_iff.1 hline
    have hfault : FaultAt origin (.ok line) n ⟨⟨origin, n⟩, cause⟩ := faultAt_ok_iff.2 ⟨hrule, hcause, rfl⟩
    obtain ⟨es, hes, hlisted, hreferences⟩ := loadLines_of_faultAt hn hfault
    simp only [faultAt_ok_iff] at hlisted
    refine ⟨es, hes, ?_, ?_, hreferences⟩
    · apply hlisted.pairwise
      rintro n e ⟨-, -, -, -, hlocation⟩
      rw [hlocation]
    · intro e
      rw [hlisted.mem]
      constructor
      · rintro ⟨n, line, hn, hrule, hread, hlocation⟩
        rw [hlocation]
        exact ⟨line, hn, hrule, hread, rfl⟩
      · rintro ⟨line, hn, hrule, hread, hfile⟩
        refine ⟨_, line, hn, hrule, hread, ?_⟩
        rw [← hfile]
  · intro hwell
    obtain ⟨rules, hrules⟩ : ∃ rules : List RuleLine, (ruleLines text).map RuleLine.read = rules.map .ok := by
      apply Outcome.exists_map_eq_map_ok
      intro line hline
      cases hread : RuleLine.read line with
      | error cause => exact absurd hread (hwell line hline cause)
      | ok rule => exact ⟨rule, rfl⟩
    have hclosed : Closed rules ↔
        ∀ rule ∈ rules, ∀ r ∈ rule.alternatives, ∀ n, .nonterminal n ∈ r → ∃ other ∈ rules, other.nonterminal = n := by
      simp only [Closed, List.mem_map]
    refine ⟨rules, hrules, ?_, ?_⟩
    · simp only [loadText_eq_ok_iff_of_rules hrules, exists_and_left, exists_eq', and_true, hclosed]
    · intro g hg
      obtain ⟨-, rfl⟩ := (loadText_eq_ok_iff_of_rules hrules).1 hg
      refine ⟨start_grammarOfRules rules, ?_, ?_⟩
      · intro n
        rw [mem_nonterminals_grammarOfRules, List.mem_map]
      · intro n hn
        rw [alternatives?_grammarOfRules, if_pos (mem_nonterminals_grammarOfRules.1 hn)]

/-- Of four lines the first is a comment and the third is well-formed. Mended, the text uses `T` before it defines it,
and has two lines for `S`. -/
theorem loadText_mended :
    (∃ es, loadText "sums" "; sums\nS T\nS -> U\n+".toList = .error es ∧ ⟨⟨"sums", 2⟩, .missingArrow⟩ ∈ es ∧
      ⟨⟨"sums", 4⟩, .missingNonterminal⟩ ∈ es ∧ ∀ e ∈ es, ∀ n, e.cause ≠ .undefinedNonterminal n) ∧
    ∃ g, loadText "sums" "; sums\nS -> T\nT -> n\nS -> n+S".toList = .ok g ∧
      g.alternatives? 'S' = some [[.nonterminal 'T'], [.terminal 'n', .terminal '+', .nonterminal 'S']] := by
  constructor
  · obtain ⟨-, hmalformed, -⟩ := loadText_faults_or_grammar "sums" "; sums\nS T\nS -> U\n+".toList
    obtain ⟨es, hes, -, hmem, hcause⟩ := hmalformed ⟨['+'], by decide, .missingNonterminal, by decide⟩
    refine ⟨es, hes, (hmem _).2 ⟨['S', ' ', 'T'], ?_⟩, (hmem _).2 ⟨['+'], ?_⟩, hcause⟩
    · exact ⟨by decide, by decide, by decide, rfl⟩
    · exact ⟨by decide, by decide, by decide, rfl⟩
  · obtain ⟨-, -, hwell⟩ := loadText_faults_or_grammar "sums" "; sums\nS -> T\nT -> n\nS -> n+S".toList
    have hok : ∀ line ∈ ruleLines "; sums\nS -> T\nT -> n\nS -> n+S".toList, (RuleLine.read line).isOk = true := by
      decide
    obtain ⟨rules, hrules, hload, hgrammar⟩ := hwell fun line hline cause hcause => by
      have hline := hok line hline
      rw [hcause] at hline
      cases hline
    have hread : (ruleLines "; sums\nS -> T\nT -> n\nS -> n+S".toList).map RuleLine.read =
        [⟨'S', [[.nonterminal 'T']]⟩, ⟨'T', [[.terminal 'n']]⟩,
          ⟨'S', [[.terminal 'n', .terminal '+', .nonterminal 'S']]⟩].map Except.ok := by decide
    obtain rfl := (List.map_inj_right fun _ _ => Except.ok.inj).1 (hrules.symm.trans hread)
    obtain ⟨g, hg⟩ := hload.2 (by simp)
    obtain ⟨-, hkeys, halts⟩ := hgrammar g hg
    exact ⟨g, hg, halts 'S' ((hkeys 'S').2 (by simp))⟩

end Source

end SimpleGrammar
