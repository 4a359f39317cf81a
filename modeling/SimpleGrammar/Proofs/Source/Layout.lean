/-
The layout of a text.

White space within a line and lines that state no rule leave no trace in what is loaded. White space is dropped by the
tokens and in front of a comment alike, and a carriage return before a line end is white space as well, so the lines
of a text may be taken for its pieces. A line that is put in makes the numbers of the lines after it greater by one,
and nothing else.

- `readLine_put_blank`: white space in a line.
- `readFrom_lines`: a carriage return before a line end says nothing.
- `readFrom_put_line`: a silent line moves what comes after it.
- `undefinedReferences_move`: the references move with their lines.
- `loadText_put_blank`, `loadText_put_line`: white space and silent lines in a text.
- `loadText_layout`: both together.
-/
import SimpleGrammar.Proofs.Source.Occurrences

namespace SimpleGrammar

/-! ## Moved lines -/

/-- the number of the line `n` after a line was put in as the line `m` -/
def moveLine (m n : Nat) : Nat := if m ≤ n then n + 1 else n

theorem moveLine_of_le {m n : Nat} (h : m ≤ n) : moveLine m n = n + 1 := if_pos h

theorem moveLine_of_lt {m n : Nat} (h : n < m) : moveLine m n = n := if_neg (Nat.not_le.2 h)

theorem moveLine_lt {m a b : Nat} (h : a < b) : moveLine m a < moveLine m b := by
  unfold moveLine
  split <;> split <;> omega

/-- the same finding after a line was put in as the line `m` -/
def Located.move {α : Type} (m : Nat) (e : Located α) : Located α :=
  { e with location := { e.location with line := moveLine m e.location.line } }

namespace Source

/-- the same definition after a line was put in as the line `m` -/
def Definition.move (m : Nat) (d : Definition) : Definition := { d with line := moveLine m d.line }

/-- the same contribution after a line was put in as the line `m` -/
def moveFound (m : Nat) : Except (Located LoadError) Definition → Except (Located LoadError) Definition
  | .error e => .error (e.move m)
  | .ok d => .ok (d.move m)

variable {file origin : String} {k m n : Nat} {p q xs ys line : List Char} {b : Char}

/-! ## White space in a line -/

/-- white space anywhere but in an arrow changes no token -/
theorem tokens_put_blank (hb : Text.isBlank b = true) (h : ¬ (p.getLast? = some '-' ∧ q.head? = some '>')) :
    tokens (p ++ b :: q) = tokens (p ++ q) := by
  rw [tokens_append_blank hb, tokens_append h]

theorem isRuleLine_put_blank (hb : Text.isBlank b = true) (p q : List Char) :
    isRuleLine (p ++ b :: q) = isRuleLine (p ++ q) := by
  rw [Bool.eq_iff_iff, isRuleLine_iff, isRuleLine_iff, List.find?_append, List.find?_append,
    List.find?_cons_of_neg (by simp [hb])]

/-- **White space in a line.** The line contributes the same. -/
theorem readLine_put_blank (hb : Text.isBlank b = true) (h : ¬ (p.getLast? = some '-' ∧ q.head? = some '>'))
    (file : String) (n : Nat) : readLine file (.ok (p ++ b :: q)) n = readLine file (.ok (p ++ q)) n := by
  rw [readLine, readLine, isRuleLine_put_blank hb, RuleLine.read, RuleLine.read, tokens_put_blank hb h]

theorem readLine_dropReturn (file : String) (p : List Char) (n : Nat) :
    readLine file (.ok (Text.dropReturn '\r' p)) n = readLine file (.ok p) n := by
  rw [Text.dropReturn]
  split
  · next hlast =>
    obtain ⟨init, rfl⟩ := List.getLast?_eq_some_iff.1 hlast
    rw [List.dropLast_concat, readLine_put_blank (by decide) (by simp), List.append_nil]
  · rfl

/-! ## Lines -/

theorem readFrom_append (file : String) (k : Nat) (before after : List (List Char)) :
    readFrom file k (before ++ after) = readFrom file k before ++ readFrom file (k + before.length) after := by
  rw [readFrom, List.map_append, List.zipIdx_append, List.filterMap_append, List.length_map]
  rfl

theorem readFrom_map (f : List Char → List Char) (hf : ∀ p n, readLine file (.ok (f p)) n = readLine file (.ok p) n)
    (k : Nat) (texts : List (List Char)) : readFrom file k (texts.map f) = readFrom file k texts := by
  induction texts generalizing k with
  | nil => rfl
  | cons text texts ih => rw [List.map_cons, readFrom_cons, readFrom_cons, hf, ih]

theorem readLine_of_not_isRuleLine (h : isRuleLine line = false) (file : String) (n : Nat) :
    readLine file (.ok line) n = none := by
  rw [readLine, h]
  rfl

/-- **Lines and pieces.** A carriage return before a line end and a piece without characters at the end of the text
contribute nothing. -/
theorem readFrom_lines (file : String) (k : Nat) (text : List Char) :
    readFrom file k (Text.lines '\n' '\r' text) = readFrom file k (Text.pieces '\n' text) := by
  conv => rhs; rw [← List.dropLast_concat_getLast (Text.pieces_ne_nil '\n' text)]
  rw [Text.lines, readFrom_append, readFrom_append, readFrom_map _ (readLine_dropReturn file), List.length_map]
  congr 1
  split
  · next hempty =>
    rw [hempty, readFrom_cons, readLine_of_not_isRuleLine rfl]
    rfl
  · rfl

/-! ## Silent lines -/

/-- a line that states no rule: it is blank, or its first character other than white space is a semicolon -/
def Silent (line : List Char) : Prop :=
  (∀ c ∈ line, Text.isBlank c = true) ∨ line.find? (!Text.isBlank ·) = some ';'

theorem isRuleLine_of_silent (h : Silent line) : isRuleLine line = false := by
  rw [← Bool.not_eq_true, isRuleLine_iff]
  rintro ⟨c, hfind, hc⟩
  rcases h with hblank | hsemi
  · have hnot := List.find?_some hfind
    rw [hblank c (List.mem_of_find?_eq_some hfind)] at hnot
    cases hnot
  · rw [hsemi] at hfind
    exact hc (Option.some.inj hfind).symm

/-- what a line contributes moves with the line -/
theorem readLine_moveLine (file : String) (text : List Char) (m n : Nat) :
    readLine file (.ok text) (moveLine m n) = (readLine file (.ok text) n).map (moveFound m) := by
  rw [readLine, readLine]
  split
  · split <;> rfl
  · rfl

/-- lines that all move -/
theorem readFrom_succ (h : m ≤ k) (texts : List (List Char)) :
    readFrom file (k + 1) texts = (readFrom file k texts).map (moveFound m) := by
  induction texts generalizing k with
  | nil => rfl
  | cons text texts ih =>
    have hline := readLine_moveLine file text m k
    rw [moveLine_of_le h] at hline
    rw [readFrom_cons, readFrom_cons, ih (Nat.le_succ_of_le h), hline, List.map_append, Option.toList_map]

/-- **A silent line.** The lines after it move, and the lines before it stay. -/
theorem readFrom_put_line (h : isRuleLine line = false) (file : String) (k : Nat) (before after : List (List Char)) :
    readFrom file k (before ++ line :: after) =
      (readFrom file k (before ++ after)).map (moveFound (k + before.length)) := by
  induction before generalizing k with
  | nil =>
    rw [List.nil_append, readFrom_cons, readLine_of_not_isRuleLine h]
    exact readFrom_succ (Nat.le_refl k) after
  | cons text before ih =>
    -- the first line stands before the one that is put in, so its number stays
    have hline := readLine_moveLine file text (k + (text :: before).length) k
    have hlt : k < k + (text :: before).length := Nat.lt_add_of_pos_right (Nat.succ_pos before.length)
    rw [moveLine_of_lt hlt] at hline
    rw [List.cons_append, readFrom_cons, ih, List.cons_append, readFrom_cons, List.map_append, ← Option.toList_map,
      ← hline, List.length_cons, Nat.add_assoc, Nat.add_comm 1]

/-! ## What is loaded -/

theorem faults_map_moveFound (m : Nat) (found : List (Except (Located LoadError) Definition)) :
    faults (found.map (moveFound m)) = (faults found).map (Located.move m) := by
  rw [faults_eq_filterMap, faults_eq_filterMap, List.filterMap_map, List.map_filterMap]
  congr 1
  funext x
  cases x <;> rfl

theorem definitions_map_moveFound (m : Nat) (found : List (Except (Located LoadError) Definition)) :
    definitions (found.map (moveFound m)) = (definitions found).map (Definition.move m) := by
  rw [definitions_eq_filterMap, definitions_eq_filterMap, List.filterMap_map, List.map_filterMap]
  congr 1
  funext x
  cases x <;> rfl

/-- **References move.** They are found at the lines to which their lines have moved. -/
theorem undefinedReferences_move {defs : List Definition} (hlt : defs.Pairwise fun a b => a.line < b.line) (m : Nat) :
    undefinedReferences (groups (defs.map (Definition.move m))).entries =
      (undefinedReferences (groups defs).entries).map fun r => (moveLine m r.1, r.2) := by
  have hmoved : (defs.map (Definition.move m)).Pairwise fun a b => a.line < b.line :=
    List.pairwise_map.2 (hlt.imp moveLine_lt)
  have hnonterminals : (defs.map (Definition.move m)).map (·.rule.nonterminal) = defs.map (·.rule.nonterminal) := by
    rw [List.map_map]
    rfl
  rw [undefinedReferences_of_perm hmoved (.refl _), undefinedReferences_of_perm hlt (.refl _), hnonterminals,
    List.map_map, List.flatMap_map, List.flatMap_map, List.map_flatMap]
  congr 1
  funext d
  rw [undefinedIn, undefinedIn, List.map_map]
  rfl

theorem grammarOf_map_move (defs : List Definition) (m : Nat) :
    grammarOf (defs.map (Definition.move m)) = grammarOf defs := by
  rw [grammarOf_eq, grammarOf_eq, List.map_map]
  rfl

/-- texts whose lines contribute the same are loaded alike -/
theorem loadText_congr {text text' : List Char}
    (h : readFrom origin 1 (Text.pieces '\n' text') = readFrom origin 1 (Text.pieces '\n' text)) :
    loadText origin text' = loadText origin text := by
  rw [← readFrom_lines, ← readFrom_lines, ← readLines_map_ok, ← readLines_map_ok] at h
  simp only [loadText, loadLines, h]

/-- a text whose lines have moved is loaded as the same, with all faults moved -/
theorem loadText_move {text text' : List Char}
    (h : readFrom origin 1 (Text.pieces '\n' text') = (readFrom origin 1 (Text.pieces '\n' text)).map (moveFound m)) :
    loadText origin text' = (loadText origin text).mapError (List.map (Located.move m)) := by
  rw [← readFrom_lines, ← readFrom_lines, ← readLines_map_ok, ← readLines_map_ok] at h
  have hlt := pairwise_definitions origin ((Text.lines '\n' '\r' text).map .ok)
  simp only [loadText, loadLines, h, faults_map_moveFound, definitions_map_moveFound, undefinedReferences_move hlt,
    grammarOf_map_move, ne_eq, List.map_eq_nil_iff]
  split
  · rfl
  · split
    · rw [Except.mapError, List.map_map, List.map_map]
      rfl
    · rfl

/-- **White space in a text.** Nothing changes, wherever it is put but in an arrow. -/
theorem loadText_put_blank (origin : String) (hb : Text.isBlank b = true) (hnewline : b ≠ '\n')
    (harrow : ¬ (xs.getLast? = some '-' ∧ ys.head? = some '>')) :
    loadText origin (xs ++ b :: ys) = loadText origin (xs ++ ys) := by
  obtain ⟨before, p, q, after, hp, hq, hpieces, hput⟩ := Text.exists_piece_at '\n' xs ys
  -- what is on both sides of the place in its piece is there in the text
  have hpiece : ¬ (p.getLast? = some '-' ∧ q.head? = some '>') := by
    rintro ⟨hdash, hgreater⟩
    obtain ⟨init, rfl⟩ := List.getLast?_eq_some_iff.1 hdash
    obtain ⟨rest, rfl⟩ := List.head?_eq_some_iff.1 hgreater
    obtain ⟨ys', hys, -⟩ := List.cons_prefix_iff.1 hq
    refine harrow ⟨List.singleton_suffix_iff_getLast?_eq_some.1 ((List.suffix_append _ _).trans hp), ?_⟩
    exact List.head?_eq_some_iff.2 ⟨ys', hys⟩
  apply loadText_congr
  rw [hpieces, hput b hnewline, readFrom_append, readFrom_append, readFrom_cons, readFrom_cons,
    readLine_put_blank hb hpiece]

/-- **A silent line in a text.** The faults from there on move by one line, and nothing else changes. -/
theorem loadText_put_line (origin : String) (hsilent : Silent line) (hnewline : '\n' ∉ line)
    (hended : xs = [] ∨ xs.getLast? = some '\n') (ys : List Char) :
    loadText origin (xs ++ line ++ '\n' :: ys) =
      (loadText origin (xs ++ ys)).mapError (List.map (Located.move (xs.count '\n' + 1))) := by
  obtain ⟨before, hlength, hpieces⟩ := Text.exists_pieces_of_ended hended
  apply loadText_move
  rw [List.append_assoc, hpieces, hpieces, Text.pieces_append_cons hnewline,
    readFrom_put_line (isRuleLine_of_silent hsilent), hlength, Nat.add_comm]

/-- **Layout.** White space that is no line end may stand anywhere but in an arrow, and a line that is blank or a
comment before any line. The first changes nothing that is loaded or reported. The second adds one to the line of each
fault from there on, and changes nothing else. -/
theorem loadText_layout (origin : String) (xs ys : List Char) :
    (∀ b, Text.isBlank b = true → b ≠ '\n' → ¬ (xs.getLast? = some '-' ∧ ys.head? = some '>') →
      loadText origin (xs ++ b :: ys) = loadText origin (xs ++ ys)) ∧
    ∀ line, Silent line → '\n' ∉ line → (xs = [] ∨ xs.getLast? = some '\n') →
      loadText origin (xs ++ line ++ '\n' :: ys) =
        (loadText origin (xs ++ ys)).mapError (List.map (Located.move (xs.count '\n' + 1))) := by
  constructor
  · intro b hb hnewline harrow
    exact loadText_put_blank origin hb hnewline harrow
  · intro line hsilent hnewline hended
    exact loadText_put_line origin hsilent hnewline hended ys

/-- White space before an arrow, and a comment before the second line, in a text with a fault in each line: the first
changes nothing, and the second moves one of the faults. -/
theorem loadText_layout_faults :
    loadText "sums" "S\u3000-> X\nT -> Y".toList =
      .error [⟨⟨"sums", 1⟩, .undefinedNonterminal 'X'⟩, ⟨⟨"sums", 2⟩, .undefinedNonterminal 'Y'⟩] ∧
    loadText "sums" "S-> X\n \t; Z ->\nT -> Y".toList =
      .error [⟨⟨"sums", 1⟩, .undefinedNonterminal 'X'⟩, ⟨⟨"sums", 3⟩, .undefinedNonterminal 'Y'⟩] := by
  have hfound :
      undefinedReferences (groups (definitionsOf "sums" "S-> X\nT -> Y".toList)).entries = [(1, 'X'), (2, 'Y')] :=
    (undefinedReferences_of_perm (pairwise_definitions "sums" _) (.refl _)).trans (by decide)
  have hload := loadText_of_references (by decide) hfound
  constructor
  · have hblank := (loadText_layout "sums" "S".toList "-> X\nT -> Y".toList).1 '\u3000' (by decide) (by decide)
      (by decide)
    exact hblank.trans hload
  · have hline := (loadText_layout "sums" "S-> X\n".toList "T -> Y".toList).2 " \t; Z ->".toList (.inr (by decide))
      (by decide) (.inr (by decide))
    exact hline.trans (congrArg (Except.mapError _) hload)

-- white space in an arrow leaves no arrow
example : loadText "sums" "S - > a".toList = .error [⟨⟨"sums", 1⟩, .missingArrow⟩] := by decide

end Source

end SimpleGrammar
