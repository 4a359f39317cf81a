/-
Grammar symbols and the right-hand sides made of them.

A symbol is a character together with its role. Uppercase characters are nonterminals and all others are terminals when
a symbol is read from text (`Symbol.ofChar`); a grammar that is built by hand may give any character either role.
-/
import SimpleGrammar.Text.Uppercase

namespace SimpleGrammar

/-- the character that stands for the empty right-hand side -/
def epsilon : Char := 'ε'

inductive Symbol where
  | terminal (c : Char)
  | nonterminal (c : Char)
deriving DecidableEq, Repr, Inhabited

namespace Symbol

/-- the symbol that `c` denotes in written grammars: uppercase characters are nonterminals -/
def ofChar (c : Char) : Symbol :=
  if Text.isUppercase c then .nonterminal c else .terminal c

/-- the character of the symbol, whatever its role -/
def char : Symbol → Char
  | terminal c => c
  | nonterminal c => c

def isNonterminal : Symbol → Bool
  | terminal _ => false
  | nonterminal _ => true

/-- by code point, and a terminal before the nonterminal of the same character -/
def le (a b : Symbol) : Bool :=
  if a.char = b.char then !a.isNonterminal || b.isNonterminal else a.char < b.char

@[simp] theorem char_ofChar (c : Char) : (ofChar c).char = c := by
  unfold ofChar; split <;> rfl

end Symbol

/-- one alternative of a nonterminal: the symbols that may replace it, none for ε -/
abbrev Rhs := List Symbol

/-- all alternatives of a nonterminal, in the order given -/
abbrev Alternatives := List Rhs

namespace Rhs

/-- the alternative written as `text`: ε alone is the empty one -/
def ofText (text : List Char) : Rhs :=
  if text = [epsilon] then [] else text.map Symbol.ofChar

/-- the characters of the alternative, ε for the empty one -/
def spell (r : Rhs) : List Char :=
  if r = [] then [epsilon] else r.map Symbol.char

def display (r : Rhs) : String := String.ofList r.spell

/-- the number of nonterminals in the alternative -/
def nonterminalCount (r : Rhs) : Nat := r.countP Symbol.isNonterminal

end Rhs

end SimpleGrammar
