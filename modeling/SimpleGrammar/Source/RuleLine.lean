/-
Rule lines: `N -> r | r | …`.

The first token is the nonterminal to define and the second an arrow; bars cut the rest into alternatives, each of them
empty, ε on its own, or symbols. Nothing at all after the arrow defines the nonterminal without any alternative. The
first fault from the left decides what is reported, except that a misplaced ε goes before a second arrow in the same
alternative.
-/
import SimpleGrammar.Source.LoadError
import SimpleGrammar.Source.Token
import SimpleGrammar.Text.Pieces

namespace SimpleGrammar.Source

/-- the alternatives that one line gives to a nonterminal -/
structure RuleLine where
  nonterminal : Char
  alternatives : Alternatives
deriving DecidableEq, Repr

/-- the symbols of an alternative; ε stands for none -/
def symbolsOf : List Token → Except LoadError Rhs
  | [] => .ok []
  | .arrow :: _ => .error .unexpectedArrow
  | .bar :: _ => .error .unsplitBar
  | .epsilon :: rest => symbolsOf rest
  | .symbol c :: rest => (symbolsOf rest).map (Symbol.ofChar c :: ·)

/-- the alternative written between two bars -/
def alternativeOf (segment : List Token) : Except LoadError Rhs :=
  if 1 < segment.length ∧ Token.epsilon ∈ segment then .error .embeddedEpsilon else symbolsOf segment

/-- the alternatives written after the arrow -/
def alternativesOf (body : List Token) : Except LoadError Alternatives :=
  if body = [] then .ok [] else (Text.pieces .bar body).mapM alternativeOf

namespace RuleLine

/-- the rule that the tokens of a line state -/
def ofTokens : List Token → Except LoadError RuleLine
  | [] => .error .noTokens
  | .symbol n :: rest =>
    if Text.isUppercase n then
      match rest with
      | .arrow :: body => (alternativesOf body).map (⟨n, ·⟩)
      | _ => .error .missingArrow
    else .error .missingNonterminal
  | _ :: _ => .error .missingNonterminal

/-- the rule that a line states -/
def read (line : List Char) : Except LoadError RuleLine := ofTokens (tokens line)

end RuleLine

/-- whether a line states a rule: it is not blank, and no comment, which a semicolon begins -/
def isRuleLine (line : List Char) : Bool :=
  match Text.dropBlanks line with
  | [] => false
  | c :: _ => c ≠ ';'

end SimpleGrammar.Source
