/-
The table of patterns as regular languages.

The patterns are written down once more, as regular languages: classes of characters, one after the other and
repeated, in the order in which they are tried. Of the words of a pattern that a text begins with one counts, the
longest, or for a string the shortest. A pattern finds this word by how far it reaches.

- `table`: the patterns in order, as languages.
- `mem_language_iff`: their words are the lexemes of their kinds.
- `Shape.Takes`: the word that counts; there is no more than one (`Shape.Takes.unique`).
- `length_le_reach`, `reach_bounds_of_string`: no word is longer than what a pattern reaches, or shorter for a string.
- `patterns_realize_table`: each pattern reaches the word that counts, and nothing where there is none.
-/
import Mathlib.Computability.Language
import SimpleGrammar.Proofs.Code.Lexeme

namespace SimpleGrammar.Code

open scoped Computability

variable {text l l' : List Char} {c : Char} {chars : Set Char} {L : Language Char}

/-! ## Classes of characters -/

def nameStart : Set Char := {c | ('a' ≤ c ∧ c ≤ 'z') ∨ ('A' ≤ c ∧ c ≤ 'Z') ∨ c = '_'}

def nameChar : Set Char := nameStart ∪ {c | '0' ≤ c ∧ c ≤ '9'}

def digit : Set Char := {c | Text.isDecimalDigit c = true}

def operatorChar : Set Char := {c | c ∈ ['+', '-', '*', '/', '=', '<', '>', '!', '&', '|']}

def specialChar : Set Char := {c | c ∈ [';', ',', '(', ')', '\x7b', '\x7d']}

/-- any character but the line end -/
def inLine : Set Char := {c | c ≠ '\n'}

theorem mem_nameStart_iff : c ∈ nameStart ↔ isNameStart c = true := by
  unfold isNameStart Char.isAlpha Char.isUpper Char.isLower
  simp only [Bool.or_eq_true, Bool.and_eq_true, decide_eq_true_eq]
  change ((97 ≤ c.val ∧ c.val ≤ 122) ∨ (65 ≤ c.val ∧ c.val ≤ 90) ∨ c = '_') ↔
    ((65 ≤ c.val ∧ c.val ≤ 90) ∨ (97 ≤ c.val ∧ c.val ≤ 122)) ∨ c = '_'
  rw [or_left_comm, or_assoc]

theorem mem_nameChar_iff : c ∈ nameChar ↔ isNameChar c = true := by
  have hdigit : c ∈ {c | '0' ≤ c ∧ c ≤ '9'} ↔ c.isDigit = true := by
    simp only [Char.isDigit, Bool.and_eq_true, decide_eq_true_eq]
    rfl
  have hname : isNameChar c = true ↔ isNameStart c = true ∨ c.isDigit = true := by
    simp only [isNameChar, isNameStart, Char.isAlphanum, Bool.or_eq_true]
    exact or_right_comm
  rw [nameChar, Set.mem_union, mem_nameStart_iff, hdigit, hname]

theorem mem_operatorChar_iff : c ∈ operatorChar ↔ isOperatorChar c = true := by
  rw [isOperatorChar, decide_eq_true_iff]
  rfl

theorem mem_specialChar_iff : c ∈ specialChar ↔ isSpecialChar c = true := by
  rw [isSpecialChar, decide_eq_true_iff]
  rfl

/-! ## Languages -/

/-- the words of one character of a class -/
def oneOf (chars : Set Char) : Language Char := {l | ∃ c ∈ chars, l = [c]}

@[simp] theorem mem_oneOf_iff : l ∈ oneOf chars ↔ ∃ c ∈ chars, l = [c] := Iff.rfl

@[simp] theorem mem_oneOf_mul_iff : l ∈ oneOf chars * L ↔ ∃ c rest, l = c :: rest ∧ c ∈ chars ∧ rest ∈ L := by
  rw [Language.mem_mul]
  refine ⟨fun h => ?_, fun h => ?_⟩
  · obtain ⟨_, ⟨c, hc, rfl⟩, rest, hrest, rfl⟩ := h
    exact ⟨c, rest, rfl, hc, hrest⟩
  · obtain ⟨c, rest, rfl, hc, hrest⟩ := h
    exact ⟨[c], ⟨c, hc, rfl⟩, rest, hrest, rfl⟩

@[simp] theorem mem_kstar_oneOf_iff : l ∈ (oneOf chars)∗ ↔ ∀ c ∈ l, c ∈ chars := by
  rw [Language.mem_kstar]
  refine ⟨fun h c hc => ?_, fun h => ?_⟩
  · obtain ⟨words, rfl, hwords⟩ := h
    obtain ⟨word, hword, hmem⟩ := List.mem_flatten.1 hc
    obtain ⟨d, hd, rfl⟩ := hwords word hword
    rwa [List.mem_singleton.1 hmem]
  · refine ⟨l.map fun c => [c], (List.flatMap_singleton' l).symm, ?_⟩
    intro word hword
    obtain ⟨c, hc, rfl⟩ := List.mem_map.1 hword
    exact ⟨c, h c hc, rfl⟩

@[simp] theorem mem_singleton_mul_iff {w : List Char} : l ∈ ({w} : Language Char) * L ↔ ∃ rest ∈ L, l = w ++ rest := by
  rw [Language.mem_mul]
  refine ⟨fun h => ?_, fun h => ?_⟩
  · obtain ⟨_, rfl, rest, hrest, rfl⟩ := h
    exact ⟨rest, hrest, rfl⟩
  · obtain ⟨rest, hrest, rfl⟩ := h
    exact ⟨w, rfl, rest, hrest, rfl⟩

@[simp] theorem mem_mul_singleton_iff {w : List Char} : l ∈ L * ({w} : Language Char) ↔ ∃ body ∈ L, l = body ++ w := by
  rw [Language.mem_mul]
  refine ⟨fun h => ?_, fun h => ?_⟩
  · obtain ⟨body, hbody, _, rfl, rfl⟩ := h
    exact ⟨body, hbody, rfl⟩
  · obtain ⟨body, hbody, rfl⟩ := h
    exact ⟨body, hbody, w, rfl, rfl⟩

/-- one character of the class and more of them -/
theorem mem_oneOf_mul_kstar_iff : l ∈ oneOf chars * (oneOf chars)∗ ↔ l ≠ [] ∧ ∀ c ∈ l, c ∈ chars := by
  simp only [mem_oneOf_mul_iff, mem_kstar_oneOf_iff]
  cases l with
  | nil => simp
  | cons c rest => simp

/-- a pattern as a language -/
structure Shape where
  kind : Kind
  language : Language Char
  /-- whether the shortest word counts, and not the longest -/
  shortest : Bool

/-- the patterns in the order in which they are tried -/
def table : List Shape :=
  [⟨.identifier, oneOf nameStart * (oneOf nameChar)∗, false⟩,
   ⟨.number, oneOf digit * (oneOf digit)∗, false⟩,
   ⟨.string, {['"']} * ((oneOf inLine)∗ * {['"']}), true⟩,
   ⟨.comment, {['/', '/']} * (oneOf inLine)∗, false⟩,
   ⟨.operator, oneOf operatorChar * (oneOf operatorChar)∗, false⟩,
   ⟨.specialChar, oneOf specialChar, false⟩]

theorem forall_mem_inLine_iff : (∀ c ∈ l, c ∈ inLine) ↔ '\n' ∉ l :=
  ⟨fun h hmem => h _ hmem rfl, fun h _ hc heq => h (heq ▸ hc)⟩

/-- **The words of the table** are the lexemes of their kinds. -/
theorem mem_language_iff {shape : Shape} (h : shape ∈ table) : l ∈ shape.language ↔ shape.kind.Matches l := by
  simp only [table, List.mem_cons, List.not_mem_nil, or_false] at h
  rcases h with rfl | rfl | rfl | rfl | rfl | rfl
  · simp [Kind.Matches, mem_nameStart_iff, mem_nameChar_iff]
  · exact mem_oneOf_mul_kstar_iff
  · simp [Kind.Matches, forall_mem_inLine_iff, and_comm]
  · simp [Kind.Matches, forall_mem_inLine_iff, and_comm]
  · rw [mem_oneOf_mul_kstar_iff]
    simp [Kind.Matches, mem_operatorChar_iff]
  · simp [Kind.Matches, mem_specialChar_iff, and_comm]

/-! ## The word that counts -/

/-- of the words of the shape that the text begins with, `l` is the longest, or the shortest if that is the one to
count -/
structure Shape.Takes (shape : Shape) (text l : List Char) : Prop where
  begins : l <+: text
  word : l ∈ shape.language
  longest : shape.shortest = false → ∀ l', l' <+: text → l' ∈ shape.language → l'.length ≤ l.length
  shortest : shape.shortest = true → ∀ l', l' <+: text → l' ∈ shape.language → l.length ≤ l'.length

theorem Shape.Takes.unique {shape : Shape} (h : shape.Takes text l) (h' : shape.Takes text l') : l = l' := by
  have hlength : l.length = l'.length := by
    cases hshortest : shape.shortest with
    | false =>
      exact Nat.le_antisymm (h'.longest hshortest l h.begins h.word) (h.longest hshortest l' h'.begins h'.word)
    | true =>
      exact Nat.le_antisymm (h.shortest hshortest l' h'.begins h'.word) (h'.shortest hshortest l h.begins h.word)
  have hprefix : l <+: l' := List.prefix_of_prefix_length_le h.begins h'.begins (Nat.le_of_eq hlength)
  exact hprefix.eq_of_length hlength

/-! ## Words and reaches -/

theorem length_le_runLength {p : Char → Bool} (hl : l <+: text) (h : ∀ x ∈ l, p x = true) :
    l.length ≤ runLength p text := by
  obtain ⟨rest, rfl⟩ := hl
  rw [runLength, List.takeWhile_append_of_pos h, List.length_append]
  exact Nat.le_add_right _ _

theorem length_le_identifierReach (hl : l <+: text) (h : Kind.identifier.Matches l) :
    l.length ≤ identifierReach text := by
  obtain ⟨c, tail, rfl, hc, htail⟩ := h
  obtain ⟨rest, rfl⟩ := hl
  have hrun := length_le_runLength (List.prefix_append tail rest) htail
  simp only [List.cons_append, identifierReach, hc, if_true, List.length_cons]
  omega

theorem length_le_commentReach (hl : l <+: text) (h : Kind.comment.Matches l) : l.length ≤ commentReach text := by
  obtain ⟨body, rfl, hbody⟩ := h
  obtain ⟨rest, rfl⟩ := hl
  have hinline : ∀ x ∈ body, decide (x ≠ '\n') = true := fun x hx => decide_eq_true fun heq => hbody (heq ▸ hx)
  have hrun := length_le_runLength (List.prefix_append body rest) hinline
  simp only [List.cons_append, commentReach, List.length_cons]
  omega

theorem length_le_specialReach (hl : l <+: text) (h : Kind.specialChar.Matches l) : l.length ≤ specialReach text := by
  obtain ⟨c, rfl, hc⟩ := h
  obtain ⟨rest, rfl⟩ := hl
  simp only [List.singleton_append, specialReach, hc, if_true, List.length_singleton, Nat.le_refl]

/-- a string ends at the first quotation mark after it has begun -/
theorem stringReach_bounds (hl : l <+: text) (h : Kind.string.Matches l) :
    0 < stringReach text ∧ stringReach text ≤ l.length := by
  obtain ⟨body, rfl, hbody⟩ := h
  obtain ⟨rest, rfl⟩ := hl
  have hquote : '"' ∈ body ++ ['"'] := by simp
  obtain ⟨first, more, hsplit, hfirst⟩ := List.eq_append_cons_of_mem hquote
  have hbefore : first <+: body := by
    have hle : first.length ≤ body.length := by
      have hlength := congrArg List.length hsplit
      simp only [List.length_append, List.length_cons, List.length_nil] at hlength
      omega
    exact List.prefix_of_prefix_length_le ⟨_, hsplit.symm⟩ (List.prefix_append _ _) hle
  have hplain : ∀ x ∈ first, (decide (x ≠ '"') && decide (x ≠ '\n')) = true := by
    intro x hx
    have hq : x ≠ '"' := fun heq => hfirst (heq ▸ hx)
    have hn : x ≠ '\n' := fun heq => hbody (heq ▸ hbefore.subset hx)
    simp [hq, hn]
  have htext : (body ++ ['"']) ++ rest = first ++ '"' :: (more ++ rest) := by
    rw [hsplit, List.append_assoc, List.cons_append]
  have hrun : runLength (fun c => c ≠ '"' && c ≠ '\n') (first ++ '"' :: (more ++ rest)) = first.length := by
    rw [runLength, List.takeWhile_append_of_pos hplain]
    simp
  have hreach : stringReach ('"' :: (body ++ ['"']) ++ rest) = first.length + 2 := by
    simp only [List.cons_append, htext, stringReach, hrun]
    simp
  have hlength := hbefore.length_le
  rw [hreach, List.length_cons, List.length_append, List.length_singleton]
  omega

/-- **How far a pattern reaches.** Where a text begins with a word of a pattern, the pattern reaches at least as far,
unless it is the one for strings. -/
theorem length_le_reach {p : Pattern} (hp : p ∈ patterns) (hkind : p.kind ≠ .string) (hl : l <+: text)
    (h : p.kind.Matches l) : l.length ≤ p.reach text := by
  simp only [patterns, List.mem_cons, List.not_mem_nil, or_false] at hp
  rcases hp with rfl | rfl | rfl | rfl | rfl | rfl
  · exact length_le_identifierReach hl h
  · exact length_le_runLength hl h.2
  · exact absurd rfl hkind
  · exact length_le_commentReach hl h
  · exact length_le_runLength hl h.2
  · exact length_le_specialReach hl h

/-- the pattern for strings reaches no further than any word of it -/
theorem reach_bounds_of_string {p : Pattern} (hp : p ∈ patterns) (hkind : p.kind = .string) (hl : l <+: text)
    (h : p.kind.Matches l) : 0 < p.reach text ∧ p.reach text ≤ l.length := by
  simp only [patterns, List.mem_cons, List.not_mem_nil, or_false] at hp
  rcases hp with rfl | rfl | rfl | rfl | rfl | rfl
  · cases hkind
  · cases hkind
  · exact stringReach_bounds hl h
  · cases hkind
  · cases hkind
  · cases hkind

theorem ne_nil_of_matches {kind : Kind} (h : kind.Matches l) : l ≠ [] := by
  rintro rfl
  cases kind <;> simp [Kind.Matches] at h

theorem reach_pos_of_matches {p : Pattern} (hp : p ∈ patterns) (hl : l <+: text) (h : p.kind.Matches l) :
    0 < p.reach text := by
  by_cases hkind : p.kind = .string
  · exact (reach_bounds_of_string hp hkind hl h).1
  · exact Nat.lt_of_lt_of_le (List.length_pos_iff.2 (ne_nil_of_matches h)) (length_le_reach hp hkind hl h)

/-- the pattern finds by its reach what the shape says by its language -/
structure Pattern.Realizes (p : Pattern) (shape : Shape) : Prop where
  kind : p.kind = shape.kind
  refuses : ∀ text, p.reach text = 0 → ∀ l, l <+: text → l ∉ shape.language
  takes : ∀ text, 0 < p.reach text → shape.Takes text (text.take (p.reach text))

/-- only of strings the shortest counts -/
theorem shortest_iff {shape : Shape} (h : shape ∈ table) : shape.shortest = true ↔ shape.kind = .string := by
  simp only [table, List.mem_cons, List.not_mem_nil, or_false] at h
  rcases h with rfl | rfl | rfl | rfl | rfl | rfl <;> decide

theorem realizes_of_kind_eq {p : Pattern} {shape : Shape} (hp : p ∈ patterns) (hshape : shape ∈ table)
    (hkind : p.kind = shape.kind) : p.Realizes shape := by
  have hword : ∀ {l}, l ∈ shape.language ↔ p.kind.Matches l := by
    intro l
    rw [mem_language_iff hshape, hkind]
  have hstring : shape.shortest = true ↔ p.kind = .string := by rw [shortest_iff hshape, hkind]
  refine ⟨hkind, fun text hreach l hl hmem => ?_, fun text hreach => ?_⟩
  · have hpos := reach_pos_of_matches hp hl (hword.1 hmem)
    omega
  · refine ⟨List.take_prefix _ _, hword.2 (matches_of_reach_pos hp hreach), ?_, ?_⟩
    · intro hlongest l hl hmem
      have hne : p.kind ≠ .string := fun hkind =>
        Bool.false_ne_true (hlongest.symm.trans (hstring.2 hkind))
      rw [List.length_take]
      exact Nat.le_min.2 ⟨length_le_reach hp hne hl (hword.1 hmem), hl.length_le⟩
    · intro hshortest l hl hmem
      have hle := (reach_bounds_of_string hp (hstring.1 hshortest) hl (hword.1 hmem)).2
      rw [List.length_take]
      exact Nat.le_trans (Nat.min_le_left _ _) hle

/-- **Patterns and languages.** The patterns find what the table says, one by one. -/
theorem patterns_realize_table : List.Forall₂ Pattern.Realizes patterns table := by
  refine .cons ?_ (.cons ?_ (.cons ?_ (.cons ?_ (.cons ?_ (.cons ?_ .nil))))) <;>
    exact realizes_of_kind_eq (by simp [patterns]) (by simp [table]) rfl

end SimpleGrammar.Code
