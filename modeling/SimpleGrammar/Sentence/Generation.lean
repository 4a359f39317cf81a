/-
Generation of random sentences.

A nonterminal is expanded by an alternative chosen at random and its symbols from left to right, each one level deeper.
From the depth `maxDepth` on, the choice is among the alternatives without nonterminals, if there are any, and a
nonterminal deeper than twice `maxDepth` is given up. So every run ends.

- `Run`: what has been written, how far the draws have been read, and which nonterminals were visited on the way.
- `generate`: a run from a start symbol.
- `generateMany`: several runs that share one source of draws; a failed run does not stop the next.
-/
import SimpleGrammar.Grammar.Basic
import SimpleGrammar.Located
import SimpleGrammar.Sentence.Choice

namespace SimpleGrammar

inductive GenerationError where
  /-- a nonterminal without a definition was reached -/
  | undefinedNonterminal (n : Char)
  /-- a nonterminal without alternatives was reached -/
  | noRules (n : Char)
  /-- a nonterminal was reached too deep -/
  | depthExceeded (n : Char)
deriving DecidableEq, Repr

namespace GenerationError

def message : GenerationError → String
  | undefinedNonterminal n => s!"No definition for nonterminal `{n}`"
  | noRules n => s!"Nonterminal `{n}` has no rules to expand"
  | depthExceeded n => s!"Gave up expanding `{n}`: the grammar does not terminate quickly enough"

instance : Explained GenerationError := ⟨message⟩

end GenerationError

namespace Sentence

/-- the depth from which expansions are steered, unless told otherwise -/
def defaultMaxDepth : Nat := 32

/-- the greatest depth at which a nonterminal is expanded; depths are 64-bit numbers -/
def depthLimit (maxDepth : Nat) : Nat := min (2 * maxDepth) (UInt64.size - 1)

theorem depthLimit_of_lt {maxDepth : Nat} (h : maxDepth < UInt64.size / 2) : depthLimit maxDepth = 2 * maxDepth := by
  unfold depthLimit
  omega

/-- the depth below the limit is a 64-bit number too -/
theorem depthLimit_add_one_lt {maxDepth : Nat} (h : maxDepth < UInt64.size / 2) :
    depthLimit maxDepth + 1 < UInt64.size := by
  rw [depthLimit_of_lt h]
  omega

/-- a nonterminal met at a depth, and the index of the alternative chosen for it, if one was -/
structure Visit where
  nonterminal : Char
  depth : Nat
  chosen : Option Nat
deriving DecidableEq, Repr

/-- a run in progress or at its end -/
structure Run where
  /-- why the run has ended before its sentence was complete, if it has -/
  error : Option GenerationError
  /-- the position of the next draw -/
  position : Nat
  /-- the sentence so far, its last character first -/
  written : List Char
  /-- the nonterminals visited so far, the latest first -/
  visits : List Visit
deriving DecidableEq, Repr

namespace Run

/-- nothing written, with the next draw at `position` -/
def start (position : Nat) : Run := ⟨none, position, [], []⟩

/-- what the run comes to: its sentence, or why there is none -/
def result (run : Run) : Except GenerationError (List Char) :=
  match run.error with
  | some e => .error e
  | none => .ok run.written.reverse

def write (run : Run) (c : Char) : Run := { run with written := c :: run.written }

/-- `v` visited and expanded by a choice that read the draws up to `position` -/
def visit (run : Run) (v : Visit) (position : Nat) : Run := { run with visits := v :: run.visits, position }

/-- `v` visited and not expanded -/
def fail (run : Run) (v : Visit) (e : GenerationError) : Run :=
  { run with visits := v :: run.visits, error := some e }

/-- the run continued, unless it has ended -/
def andThen (run : Run) (next : Run → Run) : Run := if run.error.isSome then run else next run

theorem andThen_of_error_eq_none {run : Run} (h : run.error = none) (next : Run → Run) :
    run.andThen next = next run := by
  simp [andThen, h]

theorem andThen_of_error_ne_none {run : Run} (h : run.error ≠ none) (next : Run → Run) : run.andThen next = run :=
  if_pos (Option.isSome_iff_ne_none.2 h)

end Run

/-! ## Choosing an alternative -/

/-- the alternatives, with their indices, among which a nonterminal at `depth` has its choice -/
def eligible (alts : Alternatives) (depth maxDepth : Nat) : List (Rhs × Nat) :=
  let closed := alts.zipIdx.filter fun a => a.1.nonterminalCount = 0
  if maxDepth ≤ depth ∧ closed ≠ [] then closed else alts.zipIdx

/-- the alternative chosen, its index, and the position after the draws; `none` when there is no alternative -/
def chooseAlternative (d : Draws) (alts : Alternatives) (depth maxDepth position : Nat) : Option ((Rhs × Nat) × Nat) :=
  let among := eligible alts depth maxDepth
  let picked := Choice.pick d among.length position
  (among[picked.1]?).map (·, picked.2)

/-! ## Runs -/

/-- the run continued by a symbol at `depth`; nonterminals may be expanded at `levels` depths from this one on -/
def expand (g : Grammar) (d : Draws) (maxDepth : Nat) (levels depth : Nat) (s : Symbol) (run : Run) : Run :=
  match s with
  | .terminal c => run.write c
  | .nonterminal n =>
    match g.alternatives? n with
    | none => run.fail ⟨n, depth, none⟩ (.undefinedNonterminal n)
    | some alts =>
      match levels with
      | 0 => run.fail ⟨n, depth, none⟩ (.depthExceeded n)
      | levels + 1 =>
        match chooseAlternative d alts depth maxDepth run.position with
        | none => run.fail ⟨n, depth, none⟩ (.noRules n)
        | some ((r, i), position) =>
          r.foldl (fun run s => run.andThen (expand g d maxDepth levels (depth + 1) s))
            (run.visit ⟨n, depth, some i⟩ position)

/-- the run of `start` at depth 0 -/
def generate (g : Grammar) (d : Draws) (maxDepth : Nat) (start : Char) (position : Nat) : Run :=
  expand g d maxDepth (depthLimit maxDepth + 1) 0 (.ofChar start) (.start position)

/-- `count` runs, each reading on where the one before stopped -/
def generateMany (g : Grammar) (d : Draws) (maxDepth : Nat) (start : Char) : (count position : Nat) → List Run
  | 0, _ => []
  | count + 1, position =>
    let r := generate g d maxDepth start position
    r :: generateMany g d maxDepth start count r.position

end Sentence

end SimpleGrammar
