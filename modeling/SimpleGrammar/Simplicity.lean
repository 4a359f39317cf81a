/-
Simple grammars: those that one character of lookahead and no memory but the pending symbols can follow.

A grammar is simple when no alternative is empty, every alternative is terminals with at most one nonterminal after
them, and the alternatives of one nonterminal begin with different symbols. A grammar that is not simple is shown why:
`violations` lists every offence, nonterminals in code-point order and alternatives in the order given.

- An empty alternative offends once, for being empty.
- Any other offends by its shape, by its first symbol, or both, the shape being named first. An alternative of bad shape
  still occupies its first symbol for those after it.
-/
import SimpleGrammar.Grammar.Basic
import SimpleGrammar.Located

namespace SimpleGrammar

inductive Violation where
  /-- an empty alternative -/
  | emptyRule (n : Char)
  /-- more than one nonterminal in an alternative -/
  | tooManyNonterminals (n : Char) (r : Rhs)
  /-- a nonterminal with more symbols after it -/
  | misplacedNonterminal (n : Char) (r : Rhs)
  /-- an alternative that begins like an earlier one -/
  | selectionOverlap (n : Char) (r : Rhs) (s : Symbol)
deriving DecidableEq, Repr

namespace Violation

def message : Violation → String
  | emptyRule n => s!"Rule `{n} -> {epsilon}` violates the no-{epsilon} rule"
  | tooManyNonterminals n r => s!"Rule `{n} -> {r.display}` has more than one nonterminal"
  | misplacedNonterminal n r => s!"Rule `{n} -> {r.display}` has a nonterminal before its last symbol"
  | selectionOverlap n r s => s!"Rule `{n} -> {r.display}` overlaps an earlier alternative on `{s.char}`"

instance : Explained Violation := ⟨message⟩

end Violation

/-- the symbols that the alternatives begin with, each once -/
def selectionSet (alts : Alternatives) : List Symbol := (alts.filterMap List.head?).eraseDups

/-- how the nonterminals stand in the alternative `r` of `n`: at most one, at the end -/
def shapeViolation (n : Char) (r : Rhs) : Option Violation :=
  match r.nonterminalCount with
  | 0 => none
  | 1 => if r.getLast?.any Symbol.isNonterminal then none else some (.misplacedNonterminal n r)
  | _ => some (.tooManyNonterminals n r)

/-- the offences of the alternatives of `n`; `seen` are the first symbols of those before them -/
def violationsFrom (n : Char) (seen : List Symbol) : Alternatives → List Violation
  | [] => []
  | [] :: rest => .emptyRule n :: violationsFrom n seen rest
  | (first :: tail) :: rest =>
    let r := first :: tail
    (shapeViolation n r).toList ++ (if first ∈ seen then [.selectionOverlap n r first] else []) ++
      violationsFrom n (first :: seen) rest

namespace Grammar

/-- everything that keeps the grammar from being simple -/
def violations (g : Grammar) : List Violation :=
  g.rules.entries.flatMap fun e => violationsFrom e.1 [] e.2

/-- whether the grammar is simple -/
def isSimple (g : Grammar) : Bool := g.violations.isEmpty

/-- the violations, all located at `origin` -/
def check (g : Grammar) (origin : Location) : List (Located Violation) := g.violations.map (⟨origin, ·⟩)

/-- the place of a grammar that was not read from a file -/
def unnamed : Location := .whole "<grammar>"

end Grammar

end SimpleGrammar
