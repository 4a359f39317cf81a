/-
Recognition of sentences by following the leftmost derivation that the input dictates.

A configuration holds the symbols still expected, the next one on top, and the input that is left. A nonterminal on top
is replaced by its first alternative that begins with the next character as a terminal; a terminal on top must be the
next character. Nothing is tried twice: for a simple grammar at most one alternative can apply, for any other the first
one that begins rightly is taken.

An expansion puts the awaited terminal on top, and the step after it takes a character off the input. So the run ends
after at most twice as many steps as there are characters, and one more: `weight` falls with every step.

- `derive`: the expansions of the run that uses up stack and input together, or why there is none.
- `trail`: the configurations of a run in order.
- `expansions`: what a run expands, also one that fails.
-/
import SimpleGrammar.Grammar.Basic

namespace SimpleGrammar

/-- one expansion: the nonterminal and the index of the alternative chosen for it -/
structure Step where
  nonterminal : Char
  alternative : Nat
deriving DecidableEq, Repr

/-- the expansions of a leftmost derivation in order -/
abbrev Derivation := List Step

/-- why an input is no sentence; positions count characters from 0 -/
inductive Rejection where
  /-- the input ended while symbols were expected, `pending` first -/
  | inputExhausted (pending : Symbol)
  /-- no alternative of `n` begins with `lookahead` -/
  | noApplicableRule (n : Char) (lookahead : Char) (position : Nat)
  | terminalMismatch (expected found : Char) (position : Nat)
  /-- nothing was expected any more and input was left -/
  | trailingInput (position : Nat)
deriving DecidableEq, Repr

namespace Rejection

def message : Rejection → String
  | inputExhausted pending => s!"Input ended while `{pending.char}` was still expected"
  | noApplicableRule n lookahead position =>
    s!"No rule for `{n}` starts with `{lookahead}` (position {position})"
  | terminalMismatch expected found position =>
    s!"Expected `{expected}` but found `{found}` (position {position})"
  | trailingInput position => s!"Unconsumed input from position {position}"

end Rejection

/-! ## The machine -/

structure Config where
  /-- the symbols still expected, the next one first -/
  stack : List Symbol
  /-- the input still to be read -/
  rest : List Char
  /-- how much of the input has been read -/
  position : Nat
deriving DecidableEq, Repr

/-- what happens in a configuration -/
inductive Move where
  | accept
  | reject (r : Rejection)
  /-- a terminal is read -/
  | advance (next : Config)
  /-- a nonterminal is replaced by the alternative `r` -/
  | expand (step : Step) (r : Rhs) (next : Config)
deriving DecidableEq, Repr

/-- the first alternative that begins with the terminal `c`, and its index -/
def select (alts : Alternatives) (c : Char) : Option (Rhs × Nat) :=
  alts.zipIdx.find? fun a => a.1.head? = some (.terminal c)

namespace Config

/-- `start` expected, and nothing read -/
def initial (start : Char) (input : List Char) : Config := ⟨[.ofChar start], input, 0⟩

/-- the move of `g` in a configuration -/
def move (g : Grammar) : Config → Move
  | ⟨[], [], _⟩ => .accept
  | ⟨[], _ :: _, p⟩ => .reject (.trailingInput p)
  | ⟨top :: _, [], _⟩ => .reject (.inputExhausted top)
  | ⟨.terminal t :: below, c :: rest, p⟩ =>
    if t = c then .advance ⟨below, rest, p + 1⟩ else .reject (.terminalMismatch t c p)
  | ⟨.nonterminal n :: below, c :: rest, p⟩ =>
    match select ((g.alternatives? n).getD []) c with
    | none => .reject (.noApplicableRule n c p)
    | some (r, i) => .expand ⟨n, i⟩ r ⟨r ++ below, c :: rest, p⟩

/-- twice the input left, and one more before an expansion -/
def weight (k : Config) : Nat :=
  2 * k.rest.length + match k.stack with
    | .nonterminal _ :: _ => 1
    | _ => 0

end Config

/-- a selected alternative begins with the character it was selected for -/
theorem head?_of_select {alts : Alternatives} {c : Char} {r : Rhs} {i : Nat} (h : select alts c = some (r, i)) :
    r.head? = some (.terminal c) := by
  simpa using List.find?_some h

theorem weight_lt_of_advance {g : Grammar} {k k' : Config} (h : k.move g = .advance k') :
    k'.weight < k.weight := by
  obtain ⟨stack, rest, p⟩ := k
  rcases stack with _ | ⟨_ | n, below⟩ <;> rcases rest with _ | ⟨c, rest⟩ <;> simp only [Config.move] at h <;>
    try contradiction
  · split at h
    · cases h
      simp only [Config.weight, List.length_cons]
      split <;> omega
    · contradiction
  · split at h <;> contradiction

theorem weight_lt_of_expand {g : Grammar} {k k' : Config} {s : Step} {r : Rhs} (h : k.move g = .expand s r k') :
    k'.weight < k.weight := by
  obtain ⟨stack, rest, p⟩ := k
  rcases stack with _ | ⟨_ | n, below⟩ <;> rcases rest with _ | ⟨c, rest⟩ <;> simp only [Config.move] at h <;>
    try contradiction
  · split at h <;> contradiction
  · split at h
    · contradiction
    · next r i hs =>
      -- the alternative begins with the terminal `c`, which is now on top
      have hr := head?_of_select hs
      cases h
      cases r with
      | nil => simp at hr
      | cons a r =>
        obtain rfl : a = .terminal c := by simpa using hr
        simp [Config.weight]

/-! ## Runs -/

/-- the run from a configuration: the expansions it makes if it accepts -/
def runFrom (g : Grammar) (k : Config) : Except Rejection Derivation :=
  match _h : k.move g with
  | .accept => .ok []
  | .reject r => .error r
  | .advance k' => runFrom g k'
  | .expand s _ k' => (runFrom g k').map (s :: ·)
termination_by k.weight
decreasing_by
  · exact weight_lt_of_advance ‹_›
  · exact weight_lt_of_expand ‹_›

/-- the configurations of the run from `k`, which is the first of them -/
def trail (g : Grammar) (k : Config) : List Config :=
  match _h : k.move g with
  | .accept => [k]
  | .reject _ => [k]
  | .advance k' => k :: trail g k'
  | .expand _ _ k' => k :: trail g k'
termination_by k.weight
decreasing_by
  · exact weight_lt_of_advance ‹_›
  · exact weight_lt_of_expand ‹_›

namespace Grammar

/-- the derivation of `input` from `start`, or why there is none -/
def derive (g : Grammar) (input : List Char) (start : Char) : Except Rejection Derivation :=
  runFrom g (.initial start input)

/-- whether `input` is recognized as a sentence of `start` -/
def recognizes (g : Grammar) (input : List Char) (start : Char) : Bool := (g.derive input start).isOk

end Grammar

/-- an expansion as it happens: of `nonterminal` to `rhs`, with `position` characters read -/
structure Expansion where
  nonterminal : Char
  rhs : Rhs
  position : Nat
deriving DecidableEq, Repr

/-- the expansion made in a configuration -/
def Config.expansion? (g : Grammar) (k : Config) : Option Expansion :=
  match k.move g with
  | .expand s r _ => some ⟨s.nonterminal, r, k.position⟩
  | _ => none

/-- the expansions on the way through `input`, up to its end or its rejection -/
def Grammar.expansions (g : Grammar) (input : List Char) (start : Char) : List Expansion :=
  (trail g (.initial start input)).filterMap (·.expansion? g)

end SimpleGrammar
