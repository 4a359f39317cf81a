/-
The patterns of C-like tokens.

A pattern says how far it matches at the beginning of a text. Patterns are tried in the order of the table, and the
first that matches decides, however short its match; so two slashes begin a comment and one an operator. An identifier
and a number reach as far as their characters go, and a string to the nearest quotation mark on its line.
-/
import SimpleGrammar.Code.Token
import SimpleGrammar.Text.Digit

namespace SimpleGrammar.Code

def isNameStart (c : Char) : Bool := c.isAlpha || c = '_'

def isNameChar (c : Char) : Bool := c.isAlphanum || c = '_'

def isOperatorChar (c : Char) : Bool := c ∈ ['+', '-', '*', '/', '=', '<', '>', '!', '&', '|']

def isSpecialChar (c : Char) : Bool := c ∈ [';', ',', '(', ')', '\x7b', '\x7d']

/-- how many characters from the first on satisfy `p` -/
def runLength (p : Char → Bool) (text : List Char) : Nat := (text.takeWhile p).length

/-- a name: a letter or underscore, then letters, digits and underscores, all of them ASCII -/
def identifierReach : List Char → Nat
  | c :: rest => if isNameStart c then 1 + runLength isNameChar rest else 0
  | [] => 0

/-- decimal digits of any script -/
def numberReach (text : List Char) : Nat := runLength Text.isDecimalDigit text

/-- from a quotation mark to the next one on the line -/
def stringReach : List Char → Nat
  | '"' :: rest =>
    let body := runLength (fun c => c ≠ '"' && c ≠ '\n') rest
    if rest[body]? = some '"' then body + 2 else 0
  | _ => 0

/-- from two slashes to the end of the line -/
def commentReach : List Char → Nat
  | '/' :: '/' :: rest => 2 + runLength (· ≠ '\n') rest
  | _ => 0

def operatorReach (text : List Char) : Nat := runLength isOperatorChar text

/-- a single bracket, comma or semicolon -/
def specialReach : List Char → Nat
  | c :: _ => if isSpecialChar c then 1 else 0
  | [] => 0

structure Pattern where
  kind : Kind
  /-- how many characters match at the beginning of a text, 0 when the pattern does not match -/
  reach : List Char → Nat

/-- the patterns in the order in which they are tried -/
def patterns : List Pattern :=
  [⟨.identifier, identifierReach⟩, ⟨.number, numberReach⟩, ⟨.string, stringReach⟩, ⟨.comment, commentReach⟩,
   ⟨.operator, operatorReach⟩, ⟨.specialChar, specialReach⟩]

/-- identifiers with a meaning of their own -/
def keywords : List String := ["int", "float", "return", "if", "else", "while", "for", "char"]

/-- the kind of a lexeme that a pattern of `kind` has matched -/
def kindOf (kind : Kind) (lexeme : List Char) : Kind :=
  if kind = .identifier ∧ lexeme ∈ keywords.map String.toList then .keyword else kind

end SimpleGrammar.Code
