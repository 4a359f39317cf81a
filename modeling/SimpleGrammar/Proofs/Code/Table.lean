/-
What a text begins with, by the table of patterns.

The first pattern in the table that has a word which the text begins with decides, and the token is the word of it that
counts. Where no pattern has one, the token is an unknown character. So the table says for every text what the first
token is, and scanning finds that token.

- `Begins`: the token that a text begins with, by a list of patterns; there is no more than one (`Begins.unique`).
- `begins_matchOf`: trying the patterns in turn finds it.
- `next?_eq_some_iff`: what it is to take a token, said by the table.
- `Begins.takes_or_unknown`, `Begins.maximal`: where a token comes from, and that it goes on as far as its kind allows.
- `next?_reads_table`: the first token of every text that is not blank.
-/
import Mathlib
import SimpleGrammar.Proofs.Code.Language
import SimpleGrammar.Proofs.Code.Scanning

namespace SimpleGrammar.Code

variable {text rest l : List Char} {t t' : Token} {c : Char} {kind : Kind} {shape : Shape} {shapes : List Shape}

/-! ## The first token -/

/-- the token that a text begins with, by patterns that are tried in order -/
inductive Begins (text : List Char) : List Shape → Token → Prop
  /-- the pattern has a word for it -/
  | first {shape : Shape} {shapes : List Shape} {l : List Char} (h : shape.Takes text l) :
    Begins text (shape :: shapes) ⟨kindOf shape.kind l, l⟩
  /-- the pattern has none, and those after it decide -/
  | later {shape : Shape} {shapes : List Shape} {t : Token} (hnone : ∀ l, l <+: text → l ∉ shape.language)
    (h : Begins text shapes t) : Begins text (shape :: shapes) t
  /-- no pattern is left -/
  | unknown {c : Char} {rest : List Char} (htext : text = c :: rest) : Begins text [] ⟨.unknown, [c]⟩

theorem Begins.unique (h : Begins text shapes t) (h' : Begins text shapes t') : t = t' := by
  induction h with
  | first h =>
    cases h' with
    | first h' => rw [h.unique h']
    | later hnone _ => exact absurd h.word (hnone _ h.begins)
  | later hnone _ ih =>
    cases h' with
    | first h' => exact absurd h'.word (hnone _ h'.begins)
    | later _ h' => exact ih h'
  | unknown htext =>
    cases h' with
    | unknown htext' =>
      rw [htext] at htext'
      cases htext'
      rfl

/-- no pattern has the empty word, so only a text with characters begins with a token -/
theorem Begins.ne_nil (h : Begins text shapes t) (hwords : ∀ shape ∈ shapes, [] ∉ shape.language) : text ≠ [] := by
  induction h with
  | @first shape shapes l h =>
    intro htext
    have hnil : l = [] := List.prefix_nil.1 (htext ▸ h.begins)
    exact hwords shape List.mem_cons_self (hnil ▸ h.word)
  | later _ _ ih => exact ih (List.forall_mem_cons.1 hwords).2
  | unknown htext => simp [htext]

/-! ## Scanning by the table -/

/-- the first match that patterns find in a text, or an unknown character -/
def matchOf (ps : List Pattern) (text : List Char) : Kind × Nat :=
  (ps.findSome? fun p => if p.reach text = 0 then none else some (p.kind, p.reach text)).getD (.unknown, 1)

theorem matchOf_patterns (text : List Char) : matchOf patterns text = firstMatch text := rfl

/-- **Patterns in turn.** Trying patterns one after the other finds the token that the text begins with. -/
theorem begins_matchOf {ps : List Pattern} (h : List.Forall₂ Pattern.Realizes ps shapes) (htext : text = c :: rest) :
    Begins text shapes
      ⟨kindOf (matchOf ps text).1 (text.take (matchOf ps text).2), text.take (matchOf ps text).2⟩ := by
  induction h with
  | nil =>
    have hunknown := Begins.unknown htext
    simpa [matchOf, htext, kindOf] using hunknown
  | @cons p shape ps shapes hp _ ih =>
    by_cases hreach : p.reach text = 0
    · have hskip : matchOf (p :: ps) text = matchOf ps text := by simp [matchOf, hreach]
      rw [hskip]
      exact .later (hp.refuses text hreach) ih
    · have hfound : matchOf (p :: ps) text = (shape.kind, p.reach text) := by simp [matchOf, hreach, hp.kind]
      rw [hfound]
      exact .first (hp.takes text (Nat.pos_of_ne_zero hreach))

/-- where something is left after white space, a token is taken, the one the table says -/
theorem exists_next?_of_dropBlanks (h : Text.dropBlanks text ≠ []) :
    ∃ t rest, next? text = some (t, rest) ∧ Text.dropBlanks text = t.lexeme ++ rest ∧
      Begins (Text.dropBlanks text) table t := by
  obtain ⟨c, tail, hdrop⟩ := List.exists_cons_of_ne_nil h
  have hbegins := begins_matchOf patterns_realize_table hdrop
  simp only [matchOf_patterns, hdrop] at hbegins
  simp only [next?, hdrop]
  exact ⟨_, _, rfl, (List.take_append_drop _ _).symm, hbegins⟩

theorem nil_not_mem_language (h : shape ∈ table) : [] ∉ shape.language :=
  fun hnil => ne_nil_of_matches ((mem_language_iff h).1 hnil) rfl

theorem Begins.ne_nil_of_table (h : Begins text table t) : text ≠ [] := h.ne_nil fun _ => nil_not_mem_language

/-- **Taking a token** is to take the one that the table says, after white space, and to leave what follows it. -/
theorem next?_eq_some_iff : next? text = some (t, rest) ↔
    Text.dropBlanks text = t.lexeme ++ rest ∧ Begins (Text.dropBlanks text) table t := by
  refine ⟨fun h => ?_, fun ⟨hsplit, hbegins⟩ => ?_⟩
  · have hne : Text.dropBlanks text ≠ [] := by
      intro hnil
      simp [next?, hnil] at h
    obtain ⟨t', rest', h', hsplit, hbegins⟩ := exists_next?_of_dropBlanks hne
    rw [h] at h'
    cases h'
    exact ⟨hsplit, hbegins⟩
  · obtain ⟨t', rest', h', hsplit', hbegins'⟩ := exists_next?_of_dropBlanks hbegins.ne_nil_of_table
    obtain rfl := hbegins.unique hbegins'
    rw [hsplit] at hsplit'
    rw [h', List.append_cancel_left hsplit']

/-! ## The tokens of the table -/

/-- a token is what a pattern takes, or it is unknown because no pattern takes anything -/
theorem Begins.takes_or_unknown (h : Begins text shapes t) :
    (∃ shape ∈ shapes, shape.Takes text t.lexeme ∧ t.kind = kindOf shape.kind t.lexeme) ∨
      t.kind = .unknown ∧ ∀ shape ∈ shapes, ∀ l, l <+: text → l ∉ shape.language := by
  induction h with
  | @first shape shapes l h => exact .inl ⟨shape, List.mem_cons_self, h, rfl⟩
  | later hnone _ ih =>
    rcases ih with ⟨shape, hshape, h⟩ | ⟨hkind, hall⟩
    · exact .inl ⟨shape, List.mem_cons_of_mem _ hshape, h⟩
    · exact .inr ⟨hkind, List.forall_mem_cons.2 ⟨hnone, hall⟩⟩
  | unknown _ => exact .inr ⟨rfl, by simp⟩

/-- the characters with which a lexeme of the kind goes on -/
def Kind.repeated : Kind → Set Char
  | .identifier => nameChar
  | .keyword => nameChar
  | .number => digit
  | .comment => inLine
  | .operator => operatorChar
  | .string => ∅
  | .specialChar => ∅
  | .unknown => ∅

theorem matches_concat (h : kind.Matches l) (hc : c ∈ kind.repeated) : kind.Matches (l ++ [c]) := by
  cases kind with
  | identifier =>
    obtain ⟨first, tail, rfl, hfirst, htail⟩ := h
    have hlast : ∀ x ∈ [c], isNameChar x = true := List.forall_mem_singleton.2 (mem_nameChar_iff.1 hc)
    exact ⟨first, tail ++ [c], rfl, hfirst, List.forall_mem_append.2 ⟨htail, hlast⟩⟩
  | number => exact ⟨by simp, List.forall_mem_append.2 ⟨h.2, List.forall_mem_singleton.2 hc⟩⟩
  | comment =>
    obtain ⟨body, rfl, hbody⟩ := h
    refine ⟨body ++ [c], rfl, ?_⟩
    simpa [hbody] using Ne.symm hc
  | operator =>
    have hlast : ∀ x ∈ [c], isOperatorChar x = true := List.forall_mem_singleton.2 (mem_operatorChar_iff.1 hc)
    exact ⟨by simp, List.forall_mem_append.2 ⟨h.2, hlast⟩⟩
  | keyword => exact h.elim
  | string => exact hc.elim
  | specialChar => exact hc.elim
  | unknown => exact hc.elim

theorem repeated_kindOf (kind : Kind) (l : List Char) : (kindOf kind l).repeated = kind.repeated := by
  unfold kindOf
  split
  · next h => rw [h.1, Kind.repeated, Kind.repeated]
  · rfl

/-- a word that counts cannot go on -/
theorem Shape.Takes.maximal (h : shape.Takes (l ++ c :: rest) l) (hshape : shape ∈ table) :
    c ∉ shape.kind.repeated := by
  intro hc
  have hmatches := (mem_language_iff hshape).1 h.word
  have hmore : l ++ [c] ∈ shape.language := (mem_language_iff hshape).2 (matches_concat hmatches hc)
  have hbegins : l ++ [c] <+: l ++ c :: rest := ⟨rest, by simp⟩
  cases hshortest : shape.shortest with
  | false =>
    have hle := h.longest hshortest _ hbegins hmore
    rw [List.length_append, List.length_singleton] at hle
    omega
  | true =>
    rw [(shortest_iff hshape).1 hshortest] at hc
    exact hc

/-- **As far as it goes.** The character after a token does not continue it. -/
theorem Begins.maximal (h : Begins (t.lexeme ++ c :: rest) table t) : c ∉ t.kind.repeated := by
  rcases h.takes_or_unknown with ⟨shape, hshape, htakes, hkind⟩ | ⟨hkind, -⟩
  · rw [hkind, repeated_kindOf]
    exact htakes.maximal hshape
  · rw [hkind]
    exact Set.notMem_empty c

/-- keywords are the identifiers with a meaning of their own -/
theorem Begins.keyword_or_identifier (h : Begins text table t) :
    (t.kind = .keyword → t.lexeme ∈ keywords.map String.toList) ∧
      (t.kind = .identifier → t.lexeme ∉ keywords.map String.toList) := by
  rcases h.takes_or_unknown with ⟨shape, hshape, htakes, hkind⟩ | ⟨hkind, -⟩
  · have hmatches := (mem_language_iff hshape).1 htakes.word
    rw [hkind, kindOf]
    split
    · next hkeyword => exact ⟨fun _ => hkeyword.2, fun h => by cases h⟩
    · next hplain =>
      refine ⟨fun h => ?_, fun h hmem => hplain ⟨h, hmem⟩⟩
      rw [h] at hmatches
      exact hmatches.elim
  · simp [hkind]

/-- only strings begin with a quotation mark -/
theorem kind_eq_string_of_matches (h : kind.Matches ('"' :: l)) : kind = .string := by
  cases kind with
  | string => rfl
  | identifier =>
    obtain ⟨first, tail, heq, hfirst, -⟩ := h
    cases heq
    exact absurd hfirst (by decide)
  | number => exact absurd (h.2 '"' List.mem_cons_self) (by decide)
  | comment =>
    obtain ⟨body, heq, -⟩ := h
    cases heq
  | operator => exact absurd (h.2 '"' List.mem_cons_self) (by decide)
  | specialChar =>
    obtain ⟨first, heq, hfirst⟩ := h
    cases heq
    exact absurd hfirst (by decide)
  | keyword => exact h.elim
  | unknown => exact h.elim

/-- **A quotation mark** is unknown when none after it on its line closes it. -/
theorem Begins.unknown_iff_of_quote (h : Begins ('"' :: rest) table t) :
    t.kind = .unknown ↔ ¬ ∃ body more, rest = body ++ '"' :: more ∧ '\n' ∉ body := by
  rcases h.takes_or_unknown with ⟨shape, hshape, htakes, hkind⟩ | ⟨hkind, hnone⟩
  · have hmatches := (mem_language_iff hshape).1 htakes.word
    obtain ⟨tail, hlexeme⟩ : ∃ tail, t.lexeme = '"' :: tail := by
      obtain ⟨c, tail, hcons⟩ := List.exists_cons_of_ne_nil (ne_nil_of_matches hmatches)
      have hbegins := htakes.begins
      rw [hcons, List.cons_prefix_cons] at hbegins
      exact ⟨tail, by rw [hcons, hbegins.1]⟩
    rw [hlexeme] at hmatches
    have hstring := kind_eq_string_of_matches hmatches
    rw [hstring, kindOf_of_ne (by decide)] at hkind
    rw [hstring] at hmatches
    obtain ⟨body, hbody, hline⟩ := hmatches
    obtain ⟨more, hmore⟩ := htakes.begins
    rw [hlexeme, hbody] at hmore
    simp only [hkind, reduceCtorEq, false_iff, not_not]
    exact ⟨body, more, by simpa using hmore.symm, hline⟩
  · obtain ⟨shape, hshape, hstring⟩ : ∃ shape ∈ table, shape.kind = .string := by simp [table]
    refine ⟨fun _ hclosed => ?_, fun _ => hkind⟩
    obtain ⟨body, more, hrest, hline⟩ := hclosed
    have hmatches : shape.kind.Matches ('"' :: (body ++ ['"'])) := by
      rw [hstring]
      exact ⟨body, rfl, hline⟩
    refine hnone shape hshape _ ⟨more, ?_⟩ ((mem_language_iff hshape).2 hmatches)
    simp [hrest]

/-- **Each token is what the table says.** Where anything is left after the white space in front of a text, a token is
taken from the front of it, and it is the one that the table says: of the first pattern that has a word for what is
left to begin with, the word that counts, or an unknown character when no pattern has one. Keywords are told from
other identifiers. The character after a token is not of the class that its kind goes on with; so a comment goes on to
the end of the line or of the text. And a quotation mark is unknown exactly when there is no other after it on its
line. -/
theorem next?_reads_table (text : List Char) (h : Text.dropBlanks text ≠ []) :
    ∃ t rest, next? text = some (t, rest) ∧ Text.dropBlanks text = t.lexeme ++ rest ∧
      (∀ t', Begins (Text.dropBlanks text) table t' ↔ t' = t) ∧
      (t.kind = .keyword → t.lexeme ∈ keywords.map String.toList) ∧
      (t.kind = .identifier → t.lexeme ∉ keywords.map String.toList) ∧
      (∀ c after, rest = c :: after → c ∉ t.kind.repeated) ∧
      (t.kind = .comment → '\n' ∉ t.lexeme ∧ ∀ c after, rest = c :: after → c = '\n') ∧
      ∀ after, Text.dropBlanks text = '"' :: after →
        (t.kind = .unknown ↔ ¬ ∃ body more, after = body ++ '"' :: more ∧ '\n' ∉ body) := by
  obtain ⟨t, rest, hnext, hsplit, hbegins⟩ := exists_next?_of_dropBlanks h
  obtain ⟨hkeyword, hidentifier⟩ := hbegins.keyword_or_identifier
  obtain ⟨-, -, -, hline⟩ := exists_gap_of_next? hnext
  have hmaximal : ∀ c after, rest = c :: after → c ∉ t.kind.repeated := by
    intro c after hrest
    rw [hsplit, hrest] at hbegins
    exact hbegins.maximal
  refine ⟨t, rest, hnext, hsplit, fun t' => ⟨fun h => h.unique hbegins, fun h => h ▸ hbegins⟩, hkeyword, hidentifier,
    hmaximal, fun hcomment => ⟨hline.oneLine, fun c after hrest => ?_⟩, fun after hafter => ?_⟩
  · have hclass := hmaximal c after hrest
    rw [hcomment] at hclass
    exact not_not.1 hclass
  · rw [hafter] at hbegins
    exact hbegins.unknown_iff_of_quote

/-- a string ends at the next quotation mark, though there is one more on the line -/
theorem next?_reads_table_quoted :
    Text.dropBlanks " \"a\"b\"".toList ≠ [] ∧ Begins "\"a\"b\"".toList table ⟨.string, "\"a\"".toList⟩ := by
  have hdrop : Text.dropBlanks " \"a\"b\"".toList = "\"a\"b\"".toList := by decide
  have hne : Text.dropBlanks " \"a\"b\"".toList ≠ [] := by
    rw [hdrop]
    decide
  have hfirst : next? " \"a\"b\"".toList = some (⟨.string, "\"a\"".toList⟩, "b\"".toList) := by cbv
  obtain ⟨t, rest, hnext, -, hbegins, -⟩ := next?_reads_table _ hne
  rw [hfirst] at hnext
  cases hnext
  rw [hdrop] at hbegins
  exact ⟨hne, (hbegins _).2 rfl⟩

end SimpleGrammar.Code
