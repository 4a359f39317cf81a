/-
Where a text uses nonterminals that it does not define.

A use is a capital after the arrow of a rule line; its place is the number of the line and the column in it. When all
rule lines of a text are read, what is reported of the text is its uses of nonterminals without a rule, by line and in
a line by column, whatever the order in which the definitions were collected.

- `uses_symbolsIn_tokens`: the nonterminals of an alternative are the capitals of its text.
- `listed_uses`: the nonterminals that a rule line uses, by column.
- `exists_uses`: the uses in the lines of a text, by line and column.
- `references_in_text_order`: what is reported of them.
-/
import SimpleGrammar.Proofs.Source.Faults
import SimpleGrammar.Proofs.Source.ReferenceOrder

namespace SimpleGrammar

namespace Source

/-! ## Capitals -/

theorem uses_flatten (alts : Alternatives) : uses [alts.flatten] = uses alts := by
  rw [uses, List.flatten_singleton, uses]

theorem uses_cons (x : Symbol) (r : Rhs) : uses [x :: r] = uses [[x]] ++ uses [r] := by
  simp only [uses, List.flatten_singleton, ← List.filterMap_append, List.singleton_append]

theorem uses_symbolsIn_symbol_cons (c : Char) (ts : List Token) :
    uses [symbolsIn (.symbol c :: ts)] = (if Text.isUppercase c then [c] else []) ++ uses [symbolsIn ts] := by
  have hsymbols : symbolsIn (.symbol c :: ts) = .ofChar c :: symbolsIn ts := rfl
  rw [hsymbols, uses_cons, Symbol.ofChar]
  split <;> rfl

theorem uses_symbolsIn_ofChar_cons (c : Char) (ts : List Token) :
    uses [symbolsIn (.ofChar c :: ts)] = (if Text.isUppercase c then [c] else []) ++ uses [symbolsIn ts] := by
  by_cases hc : Text.isUppercase c = true
  · rw [ofChar_of_plain (plain_of_isUppercase hc), uses_symbolsIn_symbol_cons]
  · rw [Token.ofChar, if_neg hc]
    split
    · rfl
    · split
      · rfl
      · rw [uses_symbolsIn_symbol_cons, if_neg hc]

/-- **Capitals.** The nonterminals among the symbols of a line are its capitals, in order. -/
theorem uses_symbolsIn_tokens (line : List Char) : uses [symbolsIn (tokens line)] = line.filter Text.isUppercase := by
  fun_induction tokens line with
  | case1 => rfl
  | case2 rest ih =>
    rw [List.filter_cons_of_neg (by decide), List.filter_cons_of_neg (by decide), ← ih]
    rfl
  | case3 c rest hne hc ih =>
    rw [ih, List.filter_cons_of_neg]
    intro hup
    rw [isBlank_of_isUppercase hup] at hc
    cases hc
  | case4 c rest hne hc ih =>
    rw [uses_symbolsIn_ofChar_cons, ih, List.filter_cons]
    split <;> rfl

/-! ## Rule lines -/

/-- in a line, the nonterminal `n` is used at the column `i`: it stands there, with an arrow before it -/
def UsedAt (text : List Char) (i : Nat) (n : Char) : Prop :=
  text[i]? = some n ∧ Text.isUppercase n = true ∧ ['-', '>'] <:+: text.take i

/-- a rule line is cut in two by its arrow, and all that it uses is in the second part -/
theorem exists_arrow_of_read {line : List Char} {rule : RuleLine} (h : RuleLine.read line = .ok rule) :
    ∃ before after, line = before ++ '-' :: '>' :: after ∧ '>' ∉ before ∧
      uses rule.alternatives = after.filter Text.isUppercase := by
  obtain ⟨body, hts, hn, hbody⟩ := read_eq_ok_iff.1 h
  obtain ⟨gap, rest, rfl, hgap, hrest⟩ := exists_of_tokens_eq_cons hts
  obtain ⟨gap', after, rfl, hgap', rfl⟩ := exists_of_tokens_eq_cons hrest
  refine ⟨gap ++ rule.nonterminal :: gap', after, by simp [Token.spelling], ?_, ?_⟩
  · rw [List.mem_append, List.mem_cons]
    rintro (hmem | heq | hmem)
    · exact absurd (hgap _ hmem) (by decide)
    · rw [← heq] at hn
      exact absurd hn (by decide)
    · exact absurd (hgap' _ hmem) (by decide)
  · rw [← uses_symbolsIn_tokens, ← flatten_of_alternativesOf hbody, uses_flatten]

/-- an arrow stands before a column exactly when the column is after the first arrow -/
theorem arrow_infix_take_iff {before : List Char} (after : List Char) (h : '>' ∉ before) (i : Nat) :
    ['-', '>'] <:+: (before ++ '-' :: '>' :: after).take i ↔ before.length + 2 ≤ i := by
  constructor
  · intro hpair
    by_contra hlt
    -- so far there is no `>`
    have htake : (before ++ '-' :: '>' :: after).take i <+: before ++ ['-'] := by
      have hline : before ++ '-' :: '>' :: after = (before ++ ['-']) ++ '>' :: after := by simp
      rw [hline, List.take_append_of_le_length (by simp; omega)]
      exact List.take_prefix i _
    have hmem := (hpair.trans htake.isInfix).subset (List.mem_cons_of_mem _ List.mem_cons_self)
    simp [h] at hmem
  · intro hle
    obtain ⟨j, rfl⟩ := Nat.exists_eq_add_of_le hle
    refine ⟨before, after.take j, ?_⟩
    rw [Nat.add_assoc, List.take_length_add_append, Nat.add_comm 2 j]
    simp

/-- **Uses in a rule line.** They are its capitals after the arrow, from left to right. -/
theorem listed_uses {line : List Char} {rule : RuleLine} (h : RuleLine.read line = .ok rule) :
    Listed (UsedAt line) (uses rule.alternatives) := by
  obtain ⟨before, after, rfl, hbefore, huses⟩ := exists_arrow_of_read h
  have hlisted := listed_filterMap_zipIdx (fun c _ => Option.guard Text.isUppercase c) after (before.length + 2)
  have hcapitals : ((after.zipIdx (before.length + 2)).filterMap fun c => Option.guard Text.isUppercase c.1) =
      uses rule.alternatives := by
    calc
      _ = ((after.zipIdx (before.length + 2)).map Prod.fst).filterMap (Option.guard Text.isUppercase) :=
        List.filterMap_map.symm
      _ = after.filter Text.isUppercase := by rw [List.zipIdx_map_fst, List.filterMap_eq_filter]
      _ = uses rule.alternatives := huses.symm
  rw [hcapitals] at hlisted
  refine hlisted.congr fun i n => ?_
  have hget : before.length + 2 ≤ i → (before ++ '-' :: '>' :: after)[i]? = after[i - (before.length + 2)]? := by
    intro hle
    have hline : before ++ '-' :: '>' :: after = (before ++ ['-', '>']) ++ after := by simp
    rw [hline, List.getElem?_append_right (by simpa using hle)]
    simp
  simp only [UsedAt, arrow_infix_take_iff after hbefore, List.mk_mem_zipIdx_iff_le_and_getElem?_sub,
    Option.guard_eq_some_iff]
  constructor
  · rintro ⟨c, ⟨hle, hc⟩, rfl, hup⟩
    exact ⟨(hget hle).trans hc, hup, hle⟩
  · rintro ⟨hn, hup, hle⟩
    exact ⟨n, ⟨hle, (hget hle).symm.trans hn⟩, rfl, hup⟩

/-! ## Texts -/

/-- a use of a nonterminal: the number of the line, the column in it, counted from 0, and the nonterminal -/
structure Use where
  line : Nat
  column : Nat
  nonterminal : Char
deriving DecidableEq, Repr

/-- in an earlier line, or in the same line and more to the left -/
def Use.Before (u v : Use) : Prop := u.line < v.line ∨ u.line = v.line ∧ u.column < v.column

/-- `u` is a use in one of the lines, the first of which has the number `k` -/
def UsedIn (k : Nat) (texts : List (List Char)) (u : Use) : Prop :=
  ∃ line, (line, u.line) ∈ texts.zipIdx k ∧ isRuleLine line = true ∧ UsedAt line u.column u.nonterminal

theorem usedIn_cons {k : Nat} {text : List Char} {texts : List (List Char)} {u : Use} :
    UsedIn k (text :: texts) u ↔
      (u.line = k ∧ isRuleLine text = true ∧ UsedAt text u.column u.nonterminal) ∨ UsedIn (k + 1) texts u := by
  simp only [UsedIn, List.zipIdx_cons, List.mem_cons, Prod.mk.injEq]
  constructor
  · rintro ⟨line, ⟨rfl, hline⟩ | hline, h⟩
    · exact .inl ⟨hline, h⟩
    · exact .inr ⟨line, hline, h⟩
  · rintro (⟨hline, h⟩ | ⟨line, hline, h⟩)
    · exact ⟨text, .inl ⟨rfl, hline⟩, h⟩
    · exact ⟨line, .inr hline, h⟩

theorem UsedIn.le {k : Nat} {texts : List (List Char)} {u : Use} (h : UsedIn k texts u) : k ≤ u.line := by
  obtain ⟨line, hline, -⟩ := h
  exact List.le_snd_of_mem_zipIdx hline

/-- **Uses in lines.** The undefined ones among them, by line and column, are those of the definitions in turn. -/
theorem exists_uses (file : String) (defined : List Char) (k : Nat) (texts : List (List Char))
    (hread : ∀ text ∈ texts, isRuleLine text = true → ∃ rule, RuleLine.read text = .ok rule) :
    ∃ us : List Use, us.Pairwise Use.Before ∧ (∀ u, u ∈ us ↔ UsedIn k texts u ∧ u.nonterminal ∉ defined) ∧
      us.map (fun u => (u.line, u.nonterminal)) =
        ((definitions (readFrom file k texts)).map Definition.body).flatMap (undefinedIn defined) := by
  induction texts generalizing k with
  | nil => exact ⟨[], .nil, by simp [UsedIn], rfl⟩
  | cons text texts ih =>
    obtain ⟨htext, htexts⟩ := List.forall_mem_cons.1 hread
    obtain ⟨us, hus, hmem, hmap⟩ := ih (k + 1) htexts
    rw [readFrom_cons, readLine]
    by_cases hrule : isRuleLine text = true
    · obtain ⟨rule, htext⟩ := htext hrule
      obtain ⟨found, huses, hlt, hat⟩ := listed_uses htext
      rw [if_pos hrule, htext]
      refine ⟨(found.filter (·.2 ∉ defined)).map (fun f => ⟨k, f.1, f.2⟩) ++ us, ?_, ?_, ?_⟩
      · refine List.pairwise_append.2 ⟨?_, hus, ?_⟩
        · exact List.pairwise_map.2 ((hlt.filter _).imp fun hcolumn => .inr ⟨rfl, hcolumn⟩)
        · intro u hu v hv
          obtain ⟨f, -, rfl⟩ := List.mem_map.1 hu
          exact .inl ((hmem v).1 hv).1.le
      · intro u
        rw [List.mem_append, hmem, usedIn_cons, or_and_right]
        refine or_congr_left ?_
        simp only [List.mem_map, List.mem_filter, decide_eq_true_iff]
        constructor
        · rintro ⟨f, ⟨hf, hn⟩, rfl⟩
          exact ⟨⟨rfl, hrule, (hat _ _).1 hf⟩, hn⟩
        · rintro ⟨⟨rfl, -, hused⟩, hn⟩
          exact ⟨(u.column, u.nonterminal), ⟨(hat _ _).2 hused, hn⟩, rfl⟩
      · have hdefs : definitions ([.ok ⟨k, rule⟩] ++ readFrom file (k + 1) texts) =
            ⟨k, rule⟩ :: definitions (readFrom file (k + 1) texts) := rfl
        have hline :
            ((found.filter (·.2 ∉ defined)).map fun f => (k, f.2)) = undefinedIn defined (k, rule.alternatives) := by
          rw [undefinedIn, ← huses, List.filter_map, List.map_map]
          rfl
        rw [Option.toList_some, hdefs, List.map_append, List.map_map, hmap, List.map_cons, List.flatMap_cons]
        exact congrArg (· ++ _) hline
    · rw [if_neg hrule]
      refine ⟨us, hus, ?_, hmap⟩
      intro u
      rw [hmem, usedIn_cons]
      simp [hrule]

/-- in the text, `u` is a use of a nonterminal that no line defines -/
structure Dangling (text : List Char) (u : Use) : Prop where
  used : UsedIn 1 (Text.lines '\n' '\r' text) u
  undefined : ∀ line ∈ ruleLines text, ∀ rule, RuleLine.read line = .ok rule → rule.nonterminal ≠ u.nonterminal

/-- the definition in what a line contributes -/
def definition? : Except (Located LoadError) Definition → Option Definition
  | .error _ => none
  | .ok d => some d

theorem definitions_eq_filterMap (found : List (Except (Located LoadError) Definition)) :
    definitions found = found.filterMap definition? := rfl

/-- a definition has the number of its line -/
theorem line_of_readLine {file : String} {line : SourceLine} {n : Nat} {d : Definition}
    (h : readLine file line n = some (.ok d)) : d.line = n := by
  cases line with
  | error fault => cases h
  | ok text =>
    rw [readLine] at h
    split at h
    · split at h
      · cases h
      · cases h
        rfl
    · cases h

/-- the definitions in a text without malformed lines -/
def definitionsOf (origin : String) (text : List Char) : List Definition :=
  definitions (readLines origin ((Text.lines '\n' '\r' text).map .ok))

theorem pairwise_definitions (file : String) (lines : List SourceLine) :
    (definitions (readLines file lines)).Pairwise fun a b => a.line < b.line := by
  have hlisted := listed_filterMap_zipIdx (fun line n => (readLine file line n).bind definition?) lines 1
  rw [definitions_eq_filterMap, readLines, List.filterMap_filterMap]
  apply hlisted.pairwise
  rintro n d ⟨line, -, hd⟩
  obtain ⟨found, hfound, hd⟩ := Option.bind_eq_some_iff.1 hd
  cases found with
  | error e => cases hd
  | ok d' =>
    cases hd
    exact line_of_readLine hfound

/-- a text whose rule lines are all read has no faults, and its definitions are what was read -/
theorem faults_and_rules_of_read {text : List Char}
    (h : ∀ line ∈ ruleLines text, ∃ rule, RuleLine.read line = .ok rule) (origin : String) :
    faults (readLines origin ((Text.lines '\n' '\r' text).map .ok)) = [] ∧
      (ruleLines text).map RuleLine.read = ((definitionsOf origin text).map (·.rule)).map .ok := by
  obtain ⟨rules, hrules⟩ := Outcome.exists_map_eq_map_ok h
  obtain ⟨hfaults, hdefs⟩ := (faults_and_definitions_iff origin 1 (Text.lines '\n' '\r' text) rules).2 hrules
  rw [definitionsOf, readLines_map_ok, hdefs]
  exact ⟨hfaults, hrules⟩

theorem mem_nonterminals_definitionsOf {origin : String} {text : List Char}
    (h : ∀ line ∈ ruleLines text, ∃ rule, RuleLine.read line = .ok rule) {n : Char} :
    n ∈ (definitionsOf origin text).map (·.rule.nonterminal) ↔
      ∃ line ∈ ruleLines text, ∃ rule, RuleLine.read line = .ok rule ∧ rule.nonterminal = n := by
  obtain ⟨-, hrules⟩ := faults_and_rules_of_read h origin
  constructor
  · intro hn
    obtain ⟨d, hd, rfl⟩ := List.mem_map.1 hn
    have hmem : Except.ok d.rule ∈ (ruleLines text).map RuleLine.read := by
      rw [hrules]
      exact List.mem_map_of_mem (List.mem_map_of_mem hd)
    obtain ⟨line, hline, hread⟩ := List.mem_map.1 hmem
    exact ⟨line, hline, d.rule, hread, rfl⟩
  · rintro ⟨line, hline, rule, hread, rfl⟩
    have hmem : RuleLine.read line ∈ ((definitionsOf origin text).map (·.rule)).map .ok := by
      rw [← hrules]
      exact List.mem_map_of_mem hline
    rw [hread, List.mem_map_of_injective fun _ _ => Except.ok.inj] at hmem
    obtain ⟨d, hd, rfl⟩ := List.mem_map.1 hmem
    exact List.mem_map.2 ⟨d, hd, rfl⟩

/-- a text without malformed lines is loaded, or its references are reported -/
theorem loadText_of_references {origin : String} {text : List Char} {found : List (Nat × Char)}
    (hfaults : faults (readLines origin ((Text.lines '\n' '\r' text).map .ok)) = [])
    (hfound : undefinedReferences (groups (definitionsOf origin text)).entries = found) :
    loadText origin text = if found = [] then .ok (grammarOf (definitionsOf origin text))
      else .error (found.map fun m => ⟨⟨origin, m.1⟩, .undefinedNonterminal m.2⟩) := by
  rw [definitionsOf] at hfound ⊢
  rw [loadText, loadLines]
  by_cases hnone : found = []
  · simp [hfaults, hfound, hnone]
  · simp [hfaults, hfound, hnone]

/-- **References in the order of the text.** When every rule line is read, the references that are reported are the
uses of nonterminals that no line defines, each at its own line, by line and in a line from left to right. They are
the same in whatever order the groups of definitions come, and a text without any is loaded. -/
theorem references_in_text_order (origin : String) (text : List Char)
    (h : ∀ line ∈ ruleLines text, ∃ rule, RuleLine.read line = .ok rule) :
    ∃ us : List Use, us.Pairwise Use.Before ∧ (∀ u, u ∈ us ↔ Dangling text u) ∧
      (∀ gs : List Group, gs.Perm (groups (definitionsOf origin text)).entries →
        undefinedReferences gs = us.map (fun u => (u.line, u.nonterminal)) ∧
          (undefinedReferences gs = [] ↔ ∀ u, ¬ Dangling text u)) ∧
      (us = [] ∧ (∃ g, loadText origin text = .ok g) ∨
        us ≠ [] ∧
          loadText origin text = .error (us.map fun u => ⟨⟨origin, u.line⟩, .undefinedNonterminal u.nonterminal⟩)) := by
  obtain ⟨hfaults, -⟩ := faults_and_rules_of_read h origin
  have hread : ∀ line ∈ Text.lines '\n' '\r' text, isRuleLine line = true → ∃ rule, RuleLine.read line = .ok rule :=
    fun line hline hrule => h line (List.mem_filter.2 ⟨hline, hrule⟩)
  obtain ⟨us, hus, hmem, hmap⟩ :=
    exists_uses origin ((definitionsOf origin text).map (·.rule.nonterminal)) 1 (Text.lines '\n' '\r' text) hread
  have hdangling : ∀ u, u ∈ us ↔ Dangling text u := by
    intro u
    rw [hmem, mem_nonterminals_definitionsOf h]
    constructor
    · rintro ⟨hused, hno⟩
      exact ⟨hused, fun line hline rule hrule heq => hno ⟨line, hline, rule, hrule, heq⟩⟩
    · rintro ⟨hused, hno⟩
      exact ⟨hused, fun ⟨line, hline, rule, hrule, heq⟩ => hno line hline rule hrule heq⟩
  have hreferences : ∀ gs : List Group, gs.Perm (groups (definitionsOf origin text)).entries →
      undefinedReferences gs = us.map (fun u => (u.line, u.nonterminal)) := by
    intro gs hgs
    rw [undefinedReferences_of_perm (pairwise_definitions origin _) hgs, hmap]
    rfl
  refine ⟨us, hus, hdangling, fun gs hgs => ⟨hreferences gs hgs, ?_⟩, ?_⟩
  · rw [hreferences gs hgs, List.map_eq_nil_iff, List.eq_nil_iff_forall_not_mem]
    simp only [hdangling]
  · have hload := loadText_of_references hfaults (hreferences _ (.refl _))
    by_cases hnone : us = []
    · rw [if_pos (List.map_eq_nil_iff.2 hnone)] at hload
      exact .inl ⟨hnone, _, hload⟩
    · rw [if_neg (mt List.map_eq_nil_iff.1 hnone), List.map_map] at hload
      exact .inr ⟨hnone, hload⟩

/-- Three definitions in five lines, with the groups the other way round: `X` and `Y` are used in two lines each, and
`Z` in a comment. -/
theorem references_in_text_order_interleaved :
    undefinedReferences [('T', [(2, [])]),
      ('S', [(1, [[.terminal 'a', .nonterminal 'X'], [.nonterminal 'Y']]),
        (5, [[.nonterminal 'Y', .nonterminal 'T', .nonterminal 'X']])])] = [(1, 'X'), (1, 'Y'), (5, 'Y'), (5, 'X')] ∧
    loadText "sums" "S -> aX | Y\nT->\n\n; Z\nS -> YTX".toList =
      .error [⟨⟨"sums", 1⟩, .undefinedNonterminal 'X'⟩, ⟨⟨"sums", 1⟩, .undefinedNonterminal 'Y'⟩,
        ⟨⟨"sums", 5⟩, .undefinedNonterminal 'Y'⟩, ⟨⟨"sums", 5⟩, .undefinedNonterminal 'X'⟩] := by
  have hok : ∀ line ∈ ruleLines "S -> aX | Y\nT->\n\n; Z\nS -> YTX".toList, (RuleLine.read line).isOk = true := by
    decide
  have hread : ∀ line ∈ ruleLines "S -> aX | Y\nT->\n\n; Z\nS -> YTX".toList, ∃ rule, RuleLine.read line = .ok rule :=
    fun line hline => Outcome.isOk_iff.1 (hok line hline)
  have hfound : undefinedReferences (groups (definitionsOf "sums" "S -> aX | Y\nT->\n\n; Z\nS -> YTX".toList)).entries =
      [(1, 'X'), (1, 'Y'), (5, 'Y'), (5, 'X')] :=
    (undefinedReferences_of_perm (pairwise_definitions "sums" _) (.refl _)).trans (by decide)
  obtain ⟨us, -, -, hgroups, hload⟩ := references_in_text_order "sums" _ hread
  have hus : us.map (fun u => (u.line, u.nonterminal)) = [(1, 'X'), (1, 'Y'), (5, 'Y'), (5, 'X')] := by
    rw [← (hgroups _ (.refl _)).1, hfound]
  constructor
  · rw [← hus]
    exact (hgroups _ (by decide)).1
  · have hne : us ≠ [] := by
      rintro rfl
      cases hus
    have hfaults := congrArg (List.map fun m : Nat × Char =>
      (⟨⟨"sums", m.1⟩, .undefinedNonterminal m.2⟩ : Located LoadError)) hus
    rw [List.map_map] at hfaults
    obtain ⟨rfl, -⟩ | ⟨-, herror⟩ := hload
    · exact absurd rfl hne
    · rw [herror]
      exact congrArg Except.error hfaults

end Source

end SimpleGrammar
