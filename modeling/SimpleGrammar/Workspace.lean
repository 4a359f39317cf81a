/-
A workspace: a grammar under construction and a copy put aside.

Actions change the grammar or ask about it. Every action that may change it is answered with the grammar as it is
afterwards, and loading text that is at fault is answered with the faults and changes nothing.
-/
import SimpleGrammar.Grammar.Written
import SimpleGrammar.Journal
import SimpleGrammar.Sentence.Generation

namespace SimpleGrammar

structure Workspace where
  grammar : Grammar
  saved : Grammar
deriving DecidableEq

namespace Workspace

def empty : Workspace := ⟨.empty, .empty⟩

inductive Action where
  | new
  | declare (n : Char)
  | clear (n : Char)
  | add (n : Char) (r : Rhs)
  | setStart (start : Option Char)
  | remove (n : Char)
  | load (origin : String) (text : List Char)
  | save
  | restore
  | equalsSaved
  | alternatives (n : Char)
  | nonterminals
  | display
  | selectionSet (n : Char)
  | check (origin : Location)
  | classify
  | derive (input : List Char) (start : Char)
  | recognize (input : List Char) (start : Char)
  | generate (draws : Draws) (maxDepth : Nat) (start : Char) (count : Nat)

inductive Answer where
  | grammar (g : Grammar)
  | faults (es : List (Located LoadError))
  | flag (b : Bool)
  | alternatives (alts : Option Alternatives)
  | characters (cs : List Char)
  | text (s : String)
  | symbols (set : Option (List Symbol))
  | violations (es : List (Located Violation))
  | derivation (d : Except Rejection Derivation)
  | runs (rs : List Sentence.Run)

/-- the workspace with another grammar, and the grammar as the answer -/
def change (w : Workspace) (g : Grammar) : Workspace × Answer := ({ w with grammar := g }, .grammar g)

def act (w : Workspace) : Action → Workspace × Answer
  | .new => w.change .empty
  | .declare n => w.change (w.grammar.declare n)
  | .clear n => w.change (w.grammar.clear n)
  | .add n r => w.change (w.grammar.add n r)
  | .setStart start => w.change { w.grammar with start }
  | .remove n => w.change (w.grammar.remove n)
  | .load origin text =>
    match Source.loadText origin text with
    | .error es => (w, .faults es)
    | .ok g => w.change g
  | .save => ({ w with saved := w.grammar }, .grammar w.grammar)
  | .restore => w.change w.saved
  | .equalsSaved => (w, .flag (w.grammar = w.saved))
  | .alternatives n => (w, .alternatives (w.grammar.alternatives? n))
  | .nonterminals => (w, .characters w.grammar.nonterminals)
  | .display => (w, .text w.grammar.display)
  | .selectionSet n => (w, .symbols ((w.grammar.alternatives? n).map SimpleGrammar.selectionSet))
  | .check origin => (w, .violations (w.grammar.check origin))
  | .classify => (w, .flag w.grammar.isSimple)
  | .derive input start => (w, .derivation (w.grammar.derive input start))
  | .recognize input start => (w, .flag (w.grammar.recognizes input start))
  | .generate draws maxDepth start count =>
    (w, .runs (Sentence.generateMany w.grammar draws maxDepth start count 0))

/-- the events of an action -/
def events (w : Workspace) : Action → List Event
  | .load origin text => Journal.ofLoading origin (Source.loadText origin text)
  | .check _ | .classify => Journal.ofCheck w.grammar
  | .derive input start => Journal.ofDerivation w.grammar input start
  | .recognize input start => Journal.ofRecognition w.grammar input start
  | _ => []

/-- the answers to actions taken in turn, each with its events -/
def run (w : Workspace) : List Action → List (Answer × List Event)
  | [] => []
  | a :: rest =>
    let (w', answer) := w.act a
    (answer, w.events a) :: run w' rest

end Workspace

end SimpleGrammar
