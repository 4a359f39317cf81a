/-
Grammars: a start symbol and, for each defined nonterminal, its alternatives.

A grammar grows by definitions. A definition appends alternatives to those the nonterminal has already, and the first
nonterminal ever defined becomes the start symbol. `declare`, `add` and `ofRules` are made of definitions (`define`).
Alternatives are taken away by `clear`, and by `assign`, which puts others in their place and leaves the start symbol
alone.

- `alternatives?_define`, `alternatives?_clear`, `alternatives?_assign`, `alternatives?_remove`: what each operation
  does to the alternatives of every nonterminal.
-/
import SimpleGrammar.Symbol
import SimpleGrammar.CharMap

namespace SimpleGrammar

structure Grammar where
  /-- where derivations start unless told otherwise; the first nonterminal defined -/
  start : Option Char
  rules : CharMap Alternatives
deriving DecidableEq

namespace Grammar

def empty : Grammar := ⟨none, ∅⟩

instance : Inhabited Grammar := ⟨empty⟩

/-- the alternatives of `n`, `none` when `n` is not defined -/
def alternatives? (g : Grammar) (n : Char) : Option Alternatives := g.rules.find? n

/-- the defined nonterminals in code-point order -/
def nonterminals (g : Grammar) : List Char := g.rules.keys

/-! ## Building -/

/-- `n` defined to have the alternatives `added` after those it has -/
def define (g : Grammar) (n : Char) (added : Alternatives) : Grammar :=
  ⟨g.start.or (some n), g.rules.update n (·.getD [] ++ added)⟩

/-- `n` defined, without a new alternative -/
def declare (g : Grammar) (n : Char) : Grammar := g.define n []

/-- one more alternative for `n` -/
def add (g : Grammar) (n : Char) (r : Rhs) : Grammar := g.define n [r]

/-- `n` defined, and all its alternatives taken away -/
def clear (g : Grammar) (n : Char) : Grammar :=
  ⟨g.start.or (some n), g.rules.update n fun _ => []⟩

/-- the alternatives of `n` replaced by `alts`; the start symbol stays -/
def assign (g : Grammar) (n : Char) (alts : Alternatives) : Grammar :=
  { g with rules := g.rules.update n fun _ => alts }

/-- `n` no longer defined; the start symbol stays -/
def remove (g : Grammar) (n : Char) : Grammar := { g with rules := g.rules.erase n }

/-- the definitions made in turn, starting from the empty grammar -/
def ofDefinitions (defs : List (Char × Alternatives)) : Grammar :=
  defs.foldl (fun g d => g.define d.1 d.2) empty

/-- the grammar of the given nonterminals, each with its alternatives written as text -/
def ofRules (defs : List (Char × List String)) : Grammar :=
  ofDefinitions (defs.map fun d => (d.1, d.2.map fun text => Rhs.ofText text.toList))

@[simp] theorem start_define (g : Grammar) (n : Char) (added : Alternatives) :
    (g.define n added).start = g.start.or (some n) := rfl

theorem alternatives?_define (g : Grammar) (n m : Char) (added : Alternatives) :
    (g.define n added).alternatives? m =
      if m = n then some ((g.alternatives? n).getD [] ++ added) else g.alternatives? m := by
  simp only [alternatives?, define, CharMap.find?_update]

theorem alternatives?_clear (g : Grammar) (n m : Char) :
    (g.clear n).alternatives? m = if m = n then some [] else g.alternatives? m := by
  simp only [alternatives?, clear, CharMap.find?_update]

theorem alternatives?_assign (g : Grammar) (n m : Char) (alts : Alternatives) :
    (g.assign n alts).alternatives? m = if m = n then some alts else g.alternatives? m := by
  simp only [alternatives?, assign, CharMap.find?_update]

theorem alternatives?_remove (g : Grammar) (n m : Char) :
    (g.remove n).alternatives? m = if m = n then none else g.alternatives? m := by
  simp only [alternatives?, remove, CharMap.find?_erase]

@[simp] theorem alternatives?_empty (n : Char) : empty.alternatives? n = none := rfl

/-- grammars with the same start symbol and the same alternatives for every nonterminal are the same -/
theorem ext_alternatives? {g h : Grammar} (hs : g.start = h.start) (ha : ∀ n, g.alternatives? n = h.alternatives? n) :
    g = h := by
  obtain ⟨s, r⟩ := g
  obtain ⟨t, q⟩ := h
  obtain rfl : s = t := hs
  obtain rfl : r = q := CharMap.ext_find? ha
  rfl

end Grammar

end SimpleGrammar
