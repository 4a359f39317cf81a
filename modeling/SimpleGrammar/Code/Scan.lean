/-
Scanning C-like text.

White space between tokens is skipped. What follows is a token in any case: the match of the first pattern that has one,
or else a single unknown character. So scanning never fails and nothing but white space is lost.

- `next?`: the first token of a text and the text after it; the text after is shorter.
- `tokenize`: all tokens.
-/
import SimpleGrammar.Code.Pattern
import SimpleGrammar.Text.Blank

namespace SimpleGrammar.Code

/-- the kind and the length of the token that a text begins with -/
def firstMatch (text : List Char) : Kind × Nat :=
  (patterns.findSome? fun p => if p.reach text = 0 then none else some (p.kind, p.reach text)).getD (.unknown, 1)

/-- the first token of the text and what follows it -/
def next? (text : List Char) : Option (Token × List Char) :=
  match Text.dropBlanks text with
  | [] => none
  | c :: rest =>
    let found := firstMatch (c :: rest)
    let lexeme := (c :: rest).take found.2
    some (⟨kindOf found.1 lexeme, lexeme⟩, (c :: rest).drop found.2)

theorem firstMatch_pos (text : List Char) : 0 < (firstMatch text).2 := by
  unfold firstMatch
  cases h : patterns.findSome? fun p => if p.reach text = 0 then none else some (p.kind, p.reach text) with
  | none => simp
  | some found =>
    obtain ⟨p, -, hp⟩ := List.exists_of_findSome?_eq_some h
    split at hp
    · contradiction
    · cases hp
      simp only [Option.getD_some]
      omega

theorem length_lt_of_next? {text rest : List Char} {t : Token} (h : next? text = some (t, rest)) :
    rest.length < text.length := by
  unfold next? at h
  split at h
  · contradiction
  · next c r hc =>
    have hle := Text.length_dropBlanks_le text
    have hpos := firstMatch_pos (c :: r)
    simp only [Option.some.injEq, Prod.mk.injEq] at h
    rw [← h.2]
    simp only [hc, List.length_cons, List.length_drop] at hle ⊢
    omega

/-- the tokens of the text in order -/
def tokenize (text : List Char) : List Token :=
  match _h : next? text with
  | none => []
  | some (t, rest) => t :: tokenize rest
termination_by text.length
decreasing_by exact length_lt_of_next? ‹_›

end SimpleGrammar.Code
