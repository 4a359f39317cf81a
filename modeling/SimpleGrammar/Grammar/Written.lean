/-
The written form of a grammar.

There is a line `N -> r | r | …` for each nonterminal, the start symbol's line first and the others in code-point order.
The start symbol has a line also when it is not defined.
-/
import SimpleGrammar.Grammar.Basic

namespace SimpleGrammar

/-- the alternatives with bars between them -/
def Alternatives.spell (alts : Alternatives) : List Char := [' ', '|', ' '].intercalate (alts.map Rhs.spell)

namespace Grammar

/-- the nonterminals in the order of their lines -/
def listed (g : Grammar) : List Char :=
  match g.start with
  | none => g.nonterminals
  | some s => s :: g.nonterminals.filter (· ≠ s)

/-- the line of `n`, with its line end -/
def spellLine (g : Grammar) (n : Char) : List Char :=
  n :: ' ' :: '-' :: '>' :: ' ' :: ((g.alternatives? n).getD []).spell ++ ['\n']

def spell (g : Grammar) : List Char := g.listed.flatMap g.spellLine

/-- the written form -/
def display (g : Grammar) : String := String.ofList g.spell

end Grammar

end SimpleGrammar
