/-
The journal: what the library reports while it works, event by event.

Each operation has a function that lists its events. They follow from the same definitions as the operation's answer, so
a run that is journalled and one that is not are the same run.
-/
import SimpleGrammar.Recognition
import SimpleGrammar.Simplicity
import SimpleGrammar.Source.Load

namespace SimpleGrammar

inductive Event where
  /-- grammar text was read without a fault -/
  | loaded (origin : String) (nonterminals : Nat)
  /-- an offence against simplicity was found -/
  | notSimple (v : Violation)
  /-- a nonterminal was expanded -/
  | expanded (e : Expansion)
  /-- an input was found to be no sentence -/
  | rejected (r : Rejection) (input : List Char)
deriving DecidableEq, Repr

/-- how closely one has to listen to hear of an event -/
inductive Level where
  | debug
  | trace
deriving DecidableEq, Repr

namespace Event

def level : Event → Level
  | loaded .. => .debug
  | notSimple _ => .debug
  | expanded _ => .trace
  | rejected .. => .trace

def message : Event → String
  | loaded .. => "loaded grammar"
  | notSimple _ => "grammar is not simple"
  | expanded _ => "expand"
  | rejected .. => "rejected"

end Event

namespace Journal

/-- the events of loading: one when it succeeds -/
def ofLoading (origin : String) : Except (List (Located LoadError)) Grammar → List Event
  | .error _ => []
  | .ok g => [.loaded origin g.rules.size]

/-- the events of a check: one for each violation -/
def ofCheck (g : Grammar) : List Event := g.violations.map .notSimple

/-- the events of a derivation: its expansions, also those of an input that is rejected later -/
def ofDerivation (g : Grammar) (input : List Char) (start : Char) : List Event :=
  (g.expansions input start).map .expanded

/-- the events of recognition: those of the derivation, and the rejection if there is one -/
def ofRecognition (g : Grammar) (input : List Char) (start : Char) : List Event :=
  ofDerivation g input start ++
    match g.derive input start with
    | .ok _ => []
    | .error r => [.rejected r input]

end Journal

end SimpleGrammar
