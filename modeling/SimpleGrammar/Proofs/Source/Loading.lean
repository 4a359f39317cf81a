/-
When text is loaded, and as what.

- `faults_and_definitions_iff`: no line is at fault when all rule lines are read, and the definitions are what was read.
- `loadText_eq_ok_iff`: a text is loaded when its rule lines are read and define all that they use. The grammar is that
  of the rules.
- `readable_of_loadText`: what is true of every grammar that was loaded.
-/
import SimpleGrammar.Proofs.Source.Assembly
import SimpleGrammar.Proofs.Source.RuleLine

namespace SimpleGrammar

namespace Source

/-! ## Lines -/

/-- what lines contribute when the first of them has the number `k` -/
def readFrom (file : String) (k : Nat) (texts : List (List Char)) : List (Except (Located LoadError) Definition) :=
  ((texts.map Except.ok).zipIdx k).filterMap fun l => readLine file l.1 l.2

theorem readLines_map_ok (file : String) (texts : List (List Char)) :
    readLines file (texts.map .ok) = readFrom file 1 texts := rfl

theorem readFrom_cons (file : String) (k : Nat) (text : List Char) (texts : List (List Char)) :
    readFrom file k (text :: texts) = (readLine file (.ok text) k).toList ++ readFrom file (k + 1) texts := by
  rw [readFrom, List.map_cons, List.zipIdx_cons, List.filterMap_cons]
  cases readLine file (.ok text) k <;> rfl

/-- **Rules of lines.** No line is at fault and the definitions are some rules, in order, when these rules are what is
read from the rule lines. -/
theorem faults_and_definitions_iff (file : String) (k : Nat) (texts : List (List Char)) (rules : List RuleLine) :
    faults (readFrom file k texts) = [] ∧ (definitions (readFrom file k texts)).map (·.rule) = rules ↔
      (texts.filter isRuleLine).map RuleLine.read = rules.map .ok := by
  induction texts generalizing k rules with
  | nil =>
    refine ⟨fun h => h.2 ▸ rfl, fun h => ⟨rfl, ?_⟩⟩
    exact (List.map_eq_nil_iff.1 h.symm).symm
  | cons text texts ih =>
    rw [readFrom_cons, readLine]
    by_cases hrule : isRuleLine text = true
    · rw [if_pos hrule, List.filter_cons_of_pos hrule, List.map_cons]
      cases hread : RuleLine.read text with
      | error e =>
        refine iff_of_false (fun h => List.cons_ne_nil _ _ h.1) fun h => ?_
        have hmem : Except.error e ∈ rules.map Except.ok := h ▸ List.mem_cons_self
        obtain ⟨rule, -, heq⟩ := List.mem_map.1 hmem
        cases heq
      | ok rule =>
        have hfaults :
            faults (.ok ⟨k, rule⟩ :: readFrom file (k + 1) texts) = faults (readFrom file (k + 1) texts) := rfl
        have hdefs : definitions (.ok ⟨k, rule⟩ :: readFrom file (k + 1) texts) =
            ⟨k, rule⟩ :: definitions (readFrom file (k + 1) texts) := rfl
        simp only [Option.toList_some, List.singleton_append, hfaults, hdefs, List.map_cons]
        cases rules with
        | nil => exact iff_of_false (fun h => List.cons_ne_nil _ _ h.2) (List.cons_ne_nil _ _)
        | cons rule' rules =>
          simp only [List.map_cons, List.cons.injEq, Except.ok.injEq]
          rw [and_left_comm, ih (k + 1) rules]
    · rw [if_neg hrule, List.filter_cons_of_neg hrule]
      exact ih (k + 1) rules

/-! ## Texts -/

/-- the grammar of rules -/
def grammarOfRules (rules : List RuleLine) : Grammar :=
  .ofDefinitions (rules.map fun rule => (rule.nonterminal, rule.alternatives))

theorem mem_nonterminals_grammarOfRules {rules : List RuleLine} {n : Char} :
    n ∈ (grammarOfRules rules).nonterminals ↔ n ∈ rules.map (·.nonterminal) := by
  rw [grammarOfRules, Grammar.mem_nonterminals_ofDefinitions, List.map_map]
  rfl

theorem alternative_grammarOfRules_iff {rules : List RuleLine} {r : Rhs} :
    (grammarOfRules rules).Alternative r ↔ ∃ rule ∈ rules, r ∈ rule.alternatives := by
  rw [grammarOfRules, Grammar.alternative_ofDefinitions_iff]
  constructor
  · rintro ⟨d, hd, hr⟩
    obtain ⟨rule, hrule, rfl⟩ := List.mem_map.1 hd
    exact ⟨rule, hrule, hr⟩
  · rintro ⟨rule, hrule, hr⟩
    exact ⟨_, List.mem_map_of_mem hrule, hr⟩

theorem grammarOf_eq (defs : List Definition) : grammarOf defs = grammarOfRules (defs.map (·.rule)) := by
  rw [grammarOf, assignGroups_of_perm (.refl _), grammarOfRules, List.map_map]
  rfl

theorem loadLines_eq_ok_iff {file : String} {lines : List SourceLine} {g : Grammar} :
    loadLines file lines = .ok g ↔
      faults (readLines file lines) = [] ∧ Closed ((definitions (readLines file lines)).map (·.rule)) ∧
        grammarOfRules ((definitions (readLines file lines)).map (·.rule)) = g := by
  rw [← undefinedReferences_eq_nil_iff, ← grammarOf_eq, loadLines]
  by_cases hfaults : faults (readLines file lines) = []
  · by_cases hclosed : undefinedReferences (groups (definitions (readLines file lines))).entries = []
    · simp [hfaults, hclosed]
    · simp [hfaults, hclosed]
  · simp [hfaults]

/-- the lines of a text that state a rule -/
def ruleLines (text : List Char) : List (List Char) := (Text.lines '\n' '\r' text).filter isRuleLine

/-- rule lines without the characters of a line end are the rule lines of the text that they make, with a line end
after each of them or between them -/
theorem ruleLines_of_forall {lines : List (List Char)} (hrule : ∀ line ∈ lines, isRuleLine line = true)
    (hnewline : ∀ line ∈ lines, '\n' ∉ line) (hreturn : ∀ line ∈ lines, '\r' ∉ line) :
    ruleLines (lines.flatMap (· ++ ['\n'])) = lines ∧ ruleLines (['\n'].intercalate lines) = lines := by
  have hempty : [] ∉ lines := fun hmem => absurd (hrule [] hmem) (by decide)
  have hlast : ∀ line ∈ lines, line.getLast? ≠ some '\r' :=
    fun line hline h => hreturn line hline (List.mem_of_getLast? h)
  rw [ruleLines, ruleLines, Text.lines_flatMap hnewline hlast, Text.lines_intercalate hnewline hlast hempty]
  exact ⟨List.filter_eq_self.2 hrule, List.filter_eq_self.2 hrule⟩

/-- **Loading.** A text is loaded when each of its rule lines is read and the rules define all that they use. The
grammar is that of the rules. -/
theorem loadText_eq_ok_iff {origin : String} {text : List Char} {g : Grammar} :
    loadText origin text = .ok g ↔
      ∃ rules, (ruleLines text).map RuleLine.read = rules.map .ok ∧ Closed rules ∧ grammarOfRules rules = g := by
  have hrules := faults_and_definitions_iff origin 1 (Text.lines '\n' '\r' text)
  rw [loadText, loadLines_eq_ok_iff, readLines_map_ok]
  constructor
  · rintro ⟨hfaults, hclosed, hg⟩
    exact ⟨_, (hrules _).1 ⟨hfaults, rfl⟩, hclosed, hg⟩
  · rintro ⟨rules, hread, hclosed, hg⟩
    obtain ⟨hfaults, hdefs⟩ := (hrules rules).2 hread
    rw [hdefs]
    exact ⟨hfaults, hclosed, hg⟩

end Source

/-! ## Loaded grammars -/

theorem Symbol.ofChar_eq_nonterminal_iff {c : Char} : ofChar c = .nonterminal c ↔ Text.isUppercase c = true := by
  rw [ofChar]
  split
  · next h => exact iff_of_true rfl h
  · next h => exact iff_of_false Symbol.noConfusion h

/-- grammars as text can state them -/
structure Grammar.Readable (g : Grammar) : Prop where
  /-- without nonterminals there is no start symbol -/
  start_eq_none : g.nonterminals = [] → g.start = none
  /-- with nonterminals the start symbol is one of them -/
  start_mem : g.nonterminals ≠ [] → ∃ s ∈ g.nonterminals, g.start = some s
  /-- the nonterminals are characters that are read as nonterminals -/
  key : ∀ n ∈ g.nonterminals, Symbol.ofChar n = .nonterminal n
  /-- each symbol has the role of its character -/
  role : ∀ r, g.Alternative r → ∀ x ∈ r, x = .ofChar x.char
  /-- the nonterminals in alternatives are defined -/
  defined : ∀ r, g.Alternative r → ∀ n, .nonterminal n ∈ r → n ∈ g.nonterminals
  /-- no terminal is white space, a bar or ε -/
  plain : ∀ r, g.Alternative r → ∀ c, .terminal c ∈ r → Text.isBlank c = false ∧ c ≠ '|' ∧ c ≠ epsilon

/-- the grammar of rules as they are read is as text can state it -/
theorem readable_grammarOfRules {rules : List Source.RuleLine} (hclosed : Source.Closed rules)
    (hkey : ∀ rule ∈ rules, Text.isUppercase rule.nonterminal = true)
    (halts : ∀ rule ∈ rules, ∀ r ∈ rule.alternatives, r.Readable) : (Source.grammarOfRules rules).Readable := by
  refine ⟨fun hnil => ?_, fun hne => ?_, fun n hn => ?_, fun r hr x hx => ?_, fun r hr n hn => ?_, fun r hr c hc => ?_⟩
  · rcases Grammar.start_ofDefinitions_cases _ with ⟨-, hnone⟩ | ⟨s, hs, -⟩
    · exact hnone
    · exact absurd hnil (List.ne_nil_of_mem hs)
  · rcases Grammar.start_ofDefinitions_cases _ with ⟨hnil, -⟩ | hstart
    · exact absurd hnil hne
    · exact hstart
  · obtain ⟨rule, hrule, rfl⟩ := List.mem_map.1 (Source.mem_nonterminals_grammarOfRules.1 hn)
    exact Symbol.ofChar_eq_nonterminal_iff.2 (hkey rule hrule)
  · obtain ⟨rule, hrule, hr⟩ := Source.alternative_grammarOfRules_iff.1 hr
    exact (halts rule hrule r hr x hx).1
  · obtain ⟨rule, hrule, hr⟩ := Source.alternative_grammarOfRules_iff.1 hr
    exact Source.mem_nonterminals_grammarOfRules.2 (hclosed rule hrule r hr n hn)
  · obtain ⟨rule, hrule, hr⟩ := Source.alternative_grammarOfRules_iff.1 hr
    exact (halts rule hrule r hr _ hc).2

/-- **Loaded grammars.** A grammar that was loaded is as text can state it. -/
theorem readable_of_loadText {origin : String} {text : List Char} {g : Grammar}
    (h : Source.loadText origin text = .ok g) : g.Readable := by
  obtain ⟨rules, hread, hclosed, rfl⟩ := Source.loadText_eq_ok_iff.1 h
  have hrule : ∀ rule ∈ rules, Text.isUppercase rule.nonterminal = true ∧ ∀ r ∈ rule.alternatives, r.Readable := by
    intro rule hrule
    have hmem : Except.ok rule ∈ (Source.ruleLines text).map Source.RuleLine.read := by
      rw [hread]
      exact List.mem_map_of_mem hrule
    obtain ⟨line, -, hline⟩ := List.mem_map.1 hmem
    exact Source.read_readable hline
  exact readable_grammarOfRules hclosed (fun rule h => (hrule rule h).1) fun rule h => (hrule rule h).2

end SimpleGrammar
