/-
Definitions by nonterminal, and references to nonterminals that no line defines.

The definitions of a text are kept together by nonterminal: each with the lines that define it and what every line adds.
Looking for undefined references goes through the groups in whatever order they come and sorts what it finds by line.
One line belongs to one group, so the order of the groups leaves no trace in the answer.
-/
import SimpleGrammar.CharMap
import SimpleGrammar.Source.RuleLine

namespace SimpleGrammar.Source

/-- a rule line and its number in the text -/
structure Definition where
  line : Nat
  rule : RuleLine
deriving DecidableEq, Repr

/-- the definitions of one nonterminal: line numbers, and the alternatives that the line adds -/
abbrev Group := Char × List (Nat × Alternatives)

/-- the alternatives that the lines of a group add, in line order -/
def Group.alternatives (group : Group) : Alternatives := group.2.flatMap Prod.snd

/-- the definitions of a text by nonterminal, those of each nonterminal in line order -/
def groups (defs : List Definition) : CharMap (List (Nat × Alternatives)) :=
  defs.foldl (fun m d => m.update d.rule.nonterminal (·.getD [] ++ [(d.line, d.rule.alternatives)])) ∅

/-- the nonterminals used in alternatives, in the order of their occurrences -/
def uses (alts : Alternatives) : List Char :=
  alts.flatten.filterMap fun
    | .nonterminal n => some n
    | .terminal _ => none

/-- the undefined references of one group, with the lines they occur in -/
def undefinedUses (defined : List Char) (group : Group) : List (Nat × Char) :=
  group.2.flatMap fun d => ((uses d.2).filter (· ∉ defined)).map (d.1, ·)

/-- all undefined references in line order, those of one line from left to right -/
def undefinedReferences (groups : List Group) : List (Nat × Char) :=
  (groups.flatMap (undefinedUses (groups.map Prod.fst))).mergeSort fun a b => a.1 ≤ b.1

end SimpleGrammar.Source
