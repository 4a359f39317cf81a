/-
Tokens of a line of grammar text.

A line is read from left to right: a dash directly followed by `>` is an arrow, a bar and ε are tokens of their own,
white space separates nothing and is dropped, and every other character is a symbol. There is no line without a reading.
-/
import SimpleGrammar.Symbol
import SimpleGrammar.Text.Blank

namespace SimpleGrammar.Source

inductive Token where
  | arrow
  | bar
  | epsilon
  | symbol (c : Char)
deriving DecidableEq, Repr

namespace Token

/-- the token that a character other than white space is by itself -/
def ofChar (c : Char) : Token :=
  if c = '|' then .bar else if c = SimpleGrammar.epsilon then .epsilon else .symbol c

/-- how the token is written -/
def spelling : Token → List Char
  | arrow => ['-', '>']
  | bar => ['|']
  | epsilon => [SimpleGrammar.epsilon]
  | symbol c => [c]

end Token

/-- the tokens of a line -/
def tokens : List Char → List Token
  | [] => []
  | '-' :: '>' :: rest => .arrow :: tokens rest
  | c :: rest => if Text.isBlank c then tokens rest else Token.ofChar c :: tokens rest

end SimpleGrammar.Source
