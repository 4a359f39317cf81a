/-
Tokens of C-like source text.
-/
namespace SimpleGrammar.Code

inductive Kind where
  | identifier
  | keyword
  | number
  | string
  | comment
  | operator
  | specialChar
  /-- a character that begins no other token -/
  | unknown
deriving DecidableEq, Repr

namespace Kind

/-- the name of the kind in listings -/
def name : Kind → String
  | identifier => "IDENTIFIER"
  | keyword => "KEYWORD"
  | number => "NUMBER"
  | string => "STRING"
  | comment => "COMMENT"
  | operator => "OPERATOR"
  | specialChar => "SPECIAL_CHAR"
  | unknown => "UNKNOWN"

end Kind

structure Token where
  kind : Kind
  /-- the characters of the token as they stand in the text -/
  lexeme : List Char
deriving DecidableEq, Repr

namespace Token

/-- the width of the lexeme column of a listing -/
def columnWidth : Nat := 15

/-- the token's line in a listing: lexeme at the left of its column, which a long lexeme widens, then the kind -/
def display (t : Token) : String :=
  "Token: " ++ String.ofList (t.lexeme.rightpad columnWidth ' ') ++ " Type: " ++ t.kind.name

end Token

end SimpleGrammar.Code
