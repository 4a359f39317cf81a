/-
A cursor in C-like text that can be sent back.

The cursor stands before the tokens still to come. Its place can be saved on a stack and restored from there; looking at
what is left does not move it.
-/
import SimpleGrammar.Code.Scan

namespace SimpleGrammar.Code

structure Cursor where
  /-- the text still to be scanned -/
  rest : List Char
  /-- saved places, the latest first, each as the text that was still to be scanned there -/
  saved : List (List Char)
deriving DecidableEq, Repr

namespace Cursor

inductive Action where
  /-- take the next token -/
  | next
  | save
  | restore
  /-- list the tokens left -/
  | rest
  /-- count the tokens left -/
  | count
deriving DecidableEq, Repr

inductive Answer where
  | token (t : Option Token)
  | tokens (ts : List Token)
  /-- how many places are saved, or how many tokens are left -/
  | number (n : Nat)
deriving DecidableEq, Repr

/-- the cursor before the first token of a text -/
def ofText (text : List Char) : Cursor := ⟨text, []⟩

def act (k : Cursor) : Action → Cursor × Answer
  | .next =>
    match next? k.rest with
    | none => (k, .token none)
    | some (t, rest) => ({ k with rest }, .token (some t))
  | .save => ({ k with saved := k.rest :: k.saved }, .number (k.saved.length + 1))
  | .restore =>
    match k.saved with
    | [] => (k, .number 0)
    | place :: below => (⟨place, below⟩, .number below.length)
  | .rest => (k, .tokens (tokenize k.rest))
  | .count => (k, .number (tokenize k.rest).length)

/-- the answers to the actions taken in turn -/
def run (k : Cursor) : List Action → List Answer
  | [] => []
  | a :: rest =>
    let (k', answer) := k.act a
    answer :: run k' rest

end Cursor

end SimpleGrammar.Code
