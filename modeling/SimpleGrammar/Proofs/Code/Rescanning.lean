/-
Scanning in parts.

No word of the table goes past the end of a line. So what a text begins with is the same whatever comes after the next
line end, and a line can be scanned by itself. And a token that stands alone is scanned as itself: what it was taken
for in a text it is taken for again, since of the words that the token begins with none counts that did not count in
the text.

- `tokenize_append_newline`, `tokenize_intercalate`: the tokens of lines that are put together.
- `Begins.lexeme`: a lexeme begins with its own token.
- `tokenize_lexemes`: scanning the lexemes of a text gives its tokens.
- `out_answerEach`: what is written for inputs, up to a line that cannot be read.
- `tokenize_lines`: scanning line by line, as the command does it.
-/
import SimpleGrammar.CommandLine.Run
import SimpleGrammar.Proofs.Code.Table

namespace SimpleGrammar

namespace Code

variable {text text' rest l : List Char} {t : Token} {shape : Shape} {shapes : List Shape}

/-! ## A line end after a text -/

/-- what holds no line end and begins a text that goes on after a line end begins the text -/
theorem isPrefix_append_newline_iff (hl : '\n' ∉ l) (more : List Char) :
    l <+: text ++ '\n' :: more ↔ l <+: text := by
  refine ⟨fun h => ?_, fun h => h.trans (List.prefix_append _ _)⟩
  rcases List.prefix_or_prefix_of_prefix h (List.prefix_append text _) with hl' | ⟨tail, rfl⟩
  · exact hl'
  · rw [List.prefix_append_right_inj, List.prefix_cons_iff] at h
    rcases h with rfl | ⟨after, rfl, -⟩
    · simp
    · simp at hl

/-- the word that counts is the same for texts that begin with the same words -/
theorem Shape.Takes.congr (h : shape.Takes text l) (hwords : ∀ l ∈ shape.language, l <+: text ↔ l <+: text') :
    shape.Takes text' l where
  begins := (hwords l h.word).1 h.begins
  word := h.word
  longest hlongest l' hl' hmem := h.longest hlongest l' ((hwords l' hmem).2 hl') hmem
  shortest hshortest l' hl' hmem := h.shortest hshortest l' ((hwords l' hmem).2 hl') hmem

theorem Begins.congr (h : Begins text shapes t)
    (hwords : ∀ shape ∈ shapes, ∀ l ∈ shape.language, l <+: text ↔ l <+: text')
    (hhead : text.head? = text'.head?) : Begins text' shapes t := by
  induction h with
  | first h => exact .first (h.congr (hwords _ List.mem_cons_self))
  | later hnone _ ih =>
    obtain ⟨hfirst, hafter⟩ := List.forall_mem_cons.1 hwords
    exact .later (fun l hl hmem => hnone l ((hfirst l hmem).2 hl) hmem) (ih hafter)
  | @unknown c rest htext =>
    rw [htext, List.head?_cons] at hhead
    obtain ⟨rest', htext'⟩ := List.head?_eq_some_iff.1 hhead.symm
    exact .unknown htext'

/-- **The end of a line.** What comes after a line end has no say in what the text before it begins with. -/
theorem Begins.append_newline (h : Begins text table t) (more : List Char) :
    Begins (text ++ '\n' :: more) table t := by
  refine h.congr (fun shape hshape l hmem => ?_) ?_
  · have hline := newline_not_mem_of_matches ((mem_language_iff hshape).1 hmem)
    exact (isPrefix_append_newline_iff hline more).symm
  · obtain ⟨c, tail, rfl⟩ := List.exists_cons_of_ne_nil h.ne_nil_of_table
    rfl

theorem next?_append_newline (h : next? text = some (t, rest)) (more : List Char) :
    next? (text ++ '\n' :: more) = some (t, rest ++ '\n' :: more) := by
  obtain ⟨hsplit, hbegins⟩ := next?_eq_some_iff.1 h
  rw [next?_eq_some_iff, Text.dropBlanks_append_of_ne_nil hbegins.ne_nil_of_table]
  exact ⟨by rw [hsplit, List.append_assoc], hbegins.append_newline more⟩

/-! ## Lines put together -/

/-- white space in front of a text has no tokens -/
theorem tokenize_blank_append (h : ∀ c ∈ text, Text.isBlank c = true) (rest : List Char) :
    tokenize (text ++ rest) = tokenize rest := by
  have hnext : next? (text ++ rest) = next? rest := by
    unfold next?
    rw [Text.dropBlanks_append_of_blank h]
  cases hrest : next? rest with
  | none => rw [tokenize_of_next?_eq_none hrest, tokenize_of_next?_eq_none (hnext.trans hrest)]
  | some x => rw [tokenize_of_next?_eq_some hrest, tokenize_of_next?_eq_some (hnext.trans hrest)]

/-- **A line end parts the tokens.** -/
theorem tokenize_append_newline (text more : List Char) :
    tokenize (text ++ '\n' :: more) = tokenize text ++ tokenize more := by
  fun_induction tokenize text with
  | case1 text hnone =>
    have hblank : ∀ c ∈ text ++ ['\n'], Text.isBlank c = true :=
      List.forall_mem_append.2 ⟨next?_eq_none_iff.1 hnone, List.forall_mem_singleton.2 (by decide)⟩
    rw [List.append_cons, tokenize_blank_append hblank, List.nil_append]
  | case2 text t rest hsome ih =>
    rw [tokenize_of_next?_eq_some (next?_append_newline hsome more), ih, List.cons_append]

theorem tokenize_intercalate (texts : List (List Char)) :
    tokenize (['\n'].intercalate texts) = texts.flatMap tokenize := by
  induction texts with
  | nil => exact tokenize_of_next?_eq_none (by simp [next?_eq_none_iff])
  | cons text texts ih =>
    cases texts with
    | nil => simp
    | cons text' texts =>
      rw [List.intercalate_cons_cons, List.append_assoc, List.singleton_append, tokenize_append_newline, ih]
      rfl

/-! ## Tokens by themselves -/

/-- a word that counts in a text counts by itself -/
theorem Shape.Takes.self (h : shape.Takes text l) : shape.Takes l l where
  begins := List.prefix_rfl
  word := h.word
  longest _ _ hl' _ := hl'.length_le
  shortest hshortest l' hl' hmem := h.shortest hshortest l' (hl'.trans h.begins) hmem

theorem Begins.lexeme_isPrefix (h : Begins text shapes t) : t.lexeme <+: text := by
  induction h with
  | first h => exact h.begins
  | later _ _ ih => exact ih
  | unknown htext => simp [htext]

/-- **A token stands alone.** Its lexeme begins with it. -/
theorem Begins.lexeme (h : Begins text shapes t) : Begins t.lexeme shapes t := by
  induction h with
  | first h => exact .first h.self
  | later hnone h ih => exact .later (fun l hl => hnone l (hl.trans h.lexeme_isPrefix)) ih
  | unknown _ => exact .unknown rfl

theorem tokenize_lexeme_of_next? (h : next? text = some (t, rest)) : tokenize t.lexeme = [t] := by
  obtain ⟨gap, -, -, hwellFormed⟩ := exists_gap_of_next? h
  obtain ⟨c, tail, hcons, hc⟩ := hwellFormed.begins
  have hdrop : Text.dropBlanks t.lexeme = t.lexeme := by simp [hcons, Text.dropBlanks, hc]
  have hnext : next? t.lexeme = some (t, []) := by
    rw [next?_eq_some_iff, hdrop, List.append_nil]
    have hbegins := (next?_eq_some_iff.1 h).2
    exact ⟨rfl, hbegins.lexeme⟩
  have hnone : next? [] = none := next?_eq_none_iff.2 (by simp)
  rw [tokenize_of_next?_eq_some hnext, tokenize_of_next?_eq_none hnone]

theorem tokenize_lexeme_of_mem (h : t ∈ tokenize text) : tokenize t.lexeme = [t] := by
  fun_induction tokenize text with
  | case1 text hnone => cases h
  | case2 text t' rest hsome ih =>
    rcases List.mem_cons.1 h with rfl | h
    · exact tokenize_lexeme_of_next? hsome
    · exact ih h

/-- **Scanning again.** Each token of a text is the only token of its lexeme, and the lexemes of a text, with line ends
between them, have the tokens of the text. -/
theorem tokenize_lexemes (text : List Char) :
    (∀ t ∈ tokenize text, tokenize t.lexeme = [t]) ∧
    tokenize (['\n'].intercalate ((tokenize text).map Token.lexeme)) = tokenize text := by
  have hsame : ∀ t ∈ tokenize text, tokenize t.lexeme = [t] := fun t => tokenize_lexeme_of_mem
  refine ⟨hsame, ?_⟩
  rw [tokenize_intercalate, List.flatMap_map]
  calc (tokenize text).flatMap (fun t => tokenize t.lexeme)
      = (tokenize text).flatMap (fun t => [t]) := List.flatMap_congr hsame
    _ = tokenize text := List.flatMap_singleton' _

/-- a quotation mark that is closed on the next line only is unknown, also when it stands alone -/
theorem tokenize_lexemes_unclosed :
    (⟨.unknown, ['"']⟩ : Token) ∈ tokenize "\"a\n\"b\"".toList ∧ tokenize ['"'] = [⟨.unknown, ['"']⟩] := by
  have htokens : tokenize "\"a\n\"b\"".toList =
      [⟨.unknown, ['"']⟩, ⟨.identifier, ['a']⟩, ⟨.string, "\"b\"".toList⟩] := by cbv
  have hmem : (⟨.unknown, ['"']⟩ : Token) ∈ tokenize "\"a\n\"b\"".toList := by
    rw [htokens]
    exact List.mem_cons_self
  exact ⟨hmem, (tokenize_lexemes _).1 _ hmem⟩

end Code

/-! ## Line by line -/

namespace CommandLine

/-- the inputs before the first that cannot be read -/
def readable (lines : List (Option (List Char))) : List (List Char) := (lines.takeWhile Option.isSome).filterMap id

/-- what is written to standard output are the answers to the inputs that can be read -/
theorem out_answerEach (answer : List Char → List String) (lines : List (Option (List Char))) :
    (answerEach answer lines).out = (readable lines).flatMap answer := by
  induction lines with
  | nil => rfl
  | cons line lines ih =>
    cases line with
    | none => rfl
    | some input => simpa [answerEach, Report.after, readable] using ih

theorem filter_tokenLines (text : List Char) :
    (tokenLines text).filter (· ≠ "") = (Code.tokenize text).map Code.Token.display := by
  have hdisplay : ∀ t : Code.Token, t.display ≠ "" := by
    intro t
    simp [Code.Token.display, ← String.toList_inj]
  rw [tokenLines, List.filter_append, List.filter_eq_self.2]
  · simp
  · intro line hline
    obtain ⟨t, -, rfl⟩ := List.mem_map.1 hline
    exact decide_eq_true (hdisplay t)

end CommandLine

namespace Code

open CommandLine

/-- **Scanning by lines.** A line end parts the tokens of a text, whatever stands on either side of it. So scanning
lines one after the other gives the tokens of the lines put together with line ends between them; and the listing that
is written of the inputs of the command, which are a text or else the lines of standard input up to one that cannot be
read, is that of the tokens of the inputs put together, with an empty line after each input. -/
theorem tokenize_lines :
    (∀ text more, tokenize (text ++ '\n' :: more) = tokenize text ++ tokenize more) ∧
    (∀ texts : List (List Char), texts.flatMap tokenize = tokenize (['\n'].intercalate texts)) ∧
    ∀ (s : Surroundings) (given : Option String),
      ((Command.scan given).run s).out.filter (· ≠ "") =
        (tokenize (['\n'].intercalate (readable (inputs s given.toList)))).map Token.display := by
  refine ⟨tokenize_append_newline, fun texts => (tokenize_intercalate texts).symm, fun s given => ?_⟩
  calc ((Command.scan given).run s).out.filter (· ≠ "")
      = ((readable (inputs s given.toList)).flatMap tokenLines).filter (· ≠ "") := by
        rw [Command.run, out_answerEach]
    _ = (readable (inputs s given.toList)).flatMap fun text => (tokenize text).map Token.display := by
        simp only [List.filter_flatMap, filter_tokenLines]
    _ = (tokenize (['\n'].intercalate (readable (inputs s given.toList)))).map Token.display := by
        rw [tokenize_intercalate, List.map_flatMap]

end Code

end SimpleGrammar
