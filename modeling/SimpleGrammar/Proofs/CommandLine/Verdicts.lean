/-
What is read off the verdicts on inputs.

Each input has one line on standard output: the input in quotation marks and the verdict. A quoted input has no line
end and can be told from its line, whatever its characters are, and so can the verdict, which ends the line. So no
input passes for several, or for another input with another verdict.

- `verdictLine`, `stdout_recognize`: the line of an input, and what is written for all of them.
- `accepted_isSuffix_verdictLine_iff`, `verdictLine_inj`: the verdict and the input are told from the line.
- `verdicts_of_stdout`: what is written has a line for each input and tells the inputs and their verdicts.
-/
import Mathlib.Data.List.Forall2
import SimpleGrammar.Proofs.CommandLine.Inputs
import SimpleGrammar.Proofs.Text.Quoted

namespace SimpleGrammar.CommandLine

variable {s : Surroundings} {file : String} {given : Option Char} {words : List String} {g g' : Grammar}
  {start start' : Char} {v w : List Char}

/-! ## One line -/

/-- what comes after the input on its line -/
def verdict (accepted : Bool) : String := if accepted then ": Accepted" else ": Rejected"

/-- the line of an input, without its derivation -/
def verdictLine (g : Grammar) (start : Char) (input : List Char) : List Char :=
  Text.quote input ++ (verdict (g.derive input start).isOk).toList

theorem verdictLines_false (g : Grammar) (start : Char) (input : List Char) :
    verdictLines g start false input = [String.ofList (verdictLine g start input)] := by
  cases hderive : g.derive input start with
  | ok d => simp [verdictLines, hderive, verdictLine, Except.isOk, Except.toBool, verdict]
  | error r => simp [verdictLines, hderive, verdictLine, Except.isOk, Except.toBool, verdict]

theorem newline_not_mem_verdictLine (g : Grammar) (start : Char) (input : List Char) :
    '\n' ∉ verdictLine g start input := by
  have hverdict : ∀ accepted, '\n' ∉ (verdict accepted).toList := by decide
  rw [verdictLine, List.mem_append]
  exact not_or.2 ⟨Text.newline_not_mem_quote input, hverdict _⟩

/-- **The verdict ends the line.** -/
theorem accepted_isSuffix_verdictLine_iff :
    "Accepted".toList <:+ verdictLine g start w ↔ (g.derive w start).isOk = true := by
  have hverdict : ∀ accepted, "Accepted".toList <:+ (verdict accepted).toList ↔ accepted = true := by decide
  rw [← hverdict, verdictLine]
  constructor
  · intro h
    refine List.suffix_of_suffix_length_le h (List.suffix_append _ _) ?_
    cases (g.derive w start).isOk <;> decide
  · exact fun h => h.trans (List.suffix_append _ _)

/-- **The line tells the input.** Whatever the grammars, equal lines are those of one input with one verdict. -/
theorem verdictLine_inj (h : verdictLine g start v = verdictLine g' start' w) :
    v = w ∧ (g.derive v start).isOk = (g'.derive w start').isOk := by
  have hverdict : ∀ a b, (verdict a).toList = (verdict b).toList → a = b := by decide
  obtain ⟨hinput, hrest⟩ := Text.quote_append_inj h
  exact ⟨hinput, hverdict _ _ hrest⟩

/-! ## All lines -/

theorem toList_text (lines : List String) :
    (Report.text lines).toList = (lines.map String.toList).flatMap (· ++ ['\n']) := by
  rw [Report.text, String.toList_join, List.flatMap_map, List.flatMap_map]
  refine List.flatMap_congr fun line _ => ?_
  rw [String.toList_append]
  rfl

/-- the lines of words, one after the other -/
theorem stdout_recognize (h : Recognizing s file given g start) (hne : words ≠ []) :
    ((Command.recognize file given false words).run s).stdout.toList =
      (words.map fun w => verdictLine g start w.toList).flatMap (· ++ ['\n']) := by
  have hinputs : inputs s words = (words.map String.toList).map some := by
    rw [inputs_of_ne_nil hne, List.map_map]
    rfl
  rw [run_recognize h, hinputs, answerEach_map_some, Report.stdout, toList_text]
  simp only [verdictLines_false, List.flatMap_map, List.map_flatMap, List.map_singleton, String.toList_ofList,
    List.flatMap_singleton, List.flatMap_assoc]

/-- **No verdict is forged.** Where inputs are recognized, any words at all have one line each on standard output, in
their order, which ends in the verdict on the word. And standard output tells the words and their verdicts, even if
nothing is known of the grammar: what is written for other words, or with another verdict on one of them, is
different. -/
theorem verdicts_of_stdout (h : Recognizing s file given g start) (hne : words ≠ []) :
    (∃ lines : List (List Char),
      ((Command.recognize file given false words).run s).stdout.toList = lines.flatMap (· ++ ['\n']) ∧
      (∀ line ∈ lines, '\n' ∉ line) ∧
      List.Forall₂ (fun line w => "Accepted".toList <:+ line ↔ (g.derive w.toList start).isOk = true) lines words) ∧
    ∀ {t : Surroundings} {file' : String} {given' : Option Char} {words' : List String} {g' : Grammar} {start' : Char},
      Recognizing t file' given' g' start' → words' ≠ [] →
      ((Command.recognize file given false words).run s).stdout =
        ((Command.recognize file' given' false words').run t).stdout →
      words = words' ∧ ∀ w ∈ words, (g.derive w.toList start).isOk = (g'.derive w.toList start').isOk := by
  have hlines : ∀ (g : Grammar) (start : Char) (words : List String),
      ∀ line ∈ words.map fun w => verdictLine g start w.toList, '\n' ∉ line := by
    intro g start words
    exact List.forall_mem_map.2 fun w _ => newline_not_mem_verdictLine g start w.toList
  constructor
  · refine ⟨_, stdout_recognize h hne, hlines g start words, ?_⟩
    rw [List.forall₂_map_left_iff]
    exact List.forall₂_same.2 fun w _ => accepted_isSuffix_verdictLine_iff
  · intro t file' given' words' g' start' h' hne' hout
    rw [← String.toList_inj, stdout_recognize h hne, stdout_recognize h' hne'] at hout
    have hmap := Text.flatMap_append_inj (hlines g start words) (hlines g' start' words') hout
    have hwords : words = words' := by
      rw [← List.forall₂_eq_eq_eq, List.forall₂_map_left_iff, List.forall₂_map_right_iff] at hmap
      rw [← List.forall₂_eq_eq_eq]
      exact hmap.imp fun v w hline => String.toList_inj.1 (verdictLine_inj hline).1
    subst hwords
    refine ⟨rfl, fun w hw => ?_⟩
    exact (verdictLine_inj (List.map_inj_left.1 hmap w hw)).2

/-- a word that would pass for two accepted ones if it were written as it is -/
def forged : String := "aab\": Accepted\n\"c"

/-- it has one line and is rejected there, from both nonterminals alike, and it is not taken for the two words -/
theorem verdicts_of_stdout_forged :
    (∃ line, ((Command.recognize "pairs" none false [forged]).run rightLinearFile).stdout.toList = line ++ ['\n'] ∧
      '\n' ∉ line ∧ ¬ "Accepted".toList <:+ line) ∧
    ((Command.recognize "pairs" none false [forged]).run rightLinearFile).stdout =
      ((Command.recognize "pairs" (some 'B') false [forged]).run rightLinearFile).stdout ∧
    (rightLinear.derive forged.toList 'S').isOk = (rightLinear.derive forged.toList 'B').isOk ∧
    ((Command.recognize "pairs" none false [forged]).run rightLinearFile).stdout ≠
      ((Command.recognize "pairs" (some 'B') false ["aab", "c"]).run rightLinearFile).stdout := by
  have hgiven : Recognizing rightLinearFile "pairs" (some 'B') rightLinear 'B' :=
    { recognizing_rightLinearFile with start_eq := rfl }
  have hrejected : (rightLinear.derive forged.toList 'S').isOk = false := by cbv
  have hrejected' : (rightLinear.derive forged.toList 'B').isOk = false := by cbv
  have hone : [forged] ≠ [] := List.cons_ne_nil _ _
  have hsame : ((Command.recognize "pairs" none false [forged]).run rightLinearFile).stdout =
      ((Command.recognize "pairs" (some 'B') false [forged]).run rightLinearFile).stdout := by
    rw [← String.toList_inj, stdout_recognize recognizing_rightLinearFile hone, stdout_recognize hgiven hone,
      List.map_singleton, List.map_singleton, verdictLine, verdictLine, hrejected, hrejected']
  obtain ⟨⟨lines, hout, hnewline, hverdicts⟩, htells⟩ := verdicts_of_stdout recognizing_rightLinearFile hone
  refine ⟨?_, hsame, (htells hgiven hone hsame).2 _ List.mem_cons_self, fun hequal => ?_⟩
  · obtain ⟨line, lines, hline, hlines, rfl⟩ := List.forall₂_cons_right_iff.1 hverdicts
    obtain rfl := List.forall₂_nil_right_iff.1 hlines
    refine ⟨line, hout.trans (List.flatMap_singleton _ _), hnewline line List.mem_cons_self, fun haccepted => ?_⟩
    rw [hline.1 haccepted] at hrejected
    cases hrejected
  · exact absurd (htells hgiven (List.cons_ne_nil _ _) hequal).1 (by decide)

end SimpleGrammar.CommandLine
