/-
Carrying out a command.

A command reads a grammar file, standard input or neither, and comes to a report: lines for standard output, lines for
standard error and an exit status. Status 1 is for a grammar that is not simple, status 2 for anything that cannot be
read or generated.

Inputs are the words of the command or, without any, the lines of standard input. They are answered one after the other,
and the first line that is not text ends the report: what was answered before it stands.
-/
import SimpleGrammar.Code.Scan
import SimpleGrammar.CommandLine.Arguments
import SimpleGrammar.Recognition
import SimpleGrammar.Sentence.Keystream
import SimpleGrammar.Simplicity
import SimpleGrammar.Source.Load
import SimpleGrammar.Text.Quoted

namespace SimpleGrammar.CommandLine

/-- what a command finds around it -/
structure Surroundings where
  /-- the bytes of the file of a name -/
  file : String → Except FileFault (List UInt8)
  /-- the bytes of standard input -/
  input : List UInt8
  /-- the draws of a command that was given no seed -/
  chance : Draws

structure Report where
  status : Nat
  /-- lines for standard output -/
  out : List String
  /-- lines for standard error -/
  err : List String
deriving DecidableEq, Repr

namespace Report

/-- lines as text, each with its line end -/
def text (lines : List String) : String := String.join (lines.map (· ++ "\n"))

def stdout (r : Report) : String := text r.out

def stderr (r : Report) : String := text r.err

/-- the report of nothing more to say -/
def done : Report := ⟨0, [], []⟩

/-- the report of something that cannot be read or generated -/
def failed (err : List String) : Report := ⟨2, [], err⟩

/-- the report with lines said before -/
def after (lines : List String) (r : Report) : Report := { r with out := lines ++ r.out }

end Report

/-! ## Grammars and start symbols -/

/-- what `next` makes of the grammar in `file`, or the report of its faults -/
def withGrammar (s : Surroundings) (file : String) (next : Grammar → Report) : Report :=
  match Source.loadFile file (s.file file) with
  | .error es => .failed (es.map Located.display)
  | .ok g => next g

/-- what `next` comes to if the grammar in `file` is simple, or the report of its violations -/
def ifSimple (g : Grammar) (file : String) (next : Report) : Report :=
  match g.check (.whole file) with
  | [] => next
  | es => ⟨1, ["The grammar isn't simple"], es.map Located.display⟩

/-- what `next` makes of the start symbol: the one given, or the grammar's own -/
def withStart (g : Grammar) (file : String) (given : Option Char) (next : Char → Report) : Report :=
  match given.or g.start with
  | some start => next start
  | none => .failed [file ++ " defines no nonterminal to start from"]

/-! ## Inputs -/

/-- the words of the command, or else the lines of standard input, `none` for a line that is not text -/
def inputs (s : Surroundings) (words : List String) : List (Option (List Char)) :=
  if words = [] then Text.decodeLines s.input else words.map fun w => some w.toList

/-- the lines that `answer` gives to each input, up to one that is not text -/
def answerEach (answer : List Char → List String) : List (Option (List Char)) → Report
  | [] => .done
  | none :: _ => .failed [(FileFault.notText.locate "<stdin>").display]
  | some input :: rest => (answerEach answer rest).after (answer input)

/-! ## Commands -/

/-- the line of a step of a derivation: the nonterminal and the alternative chosen -/
def stepLine (g : Grammar) (step : Step) : String :=
  let r := ((g.alternatives? step.nonterminal).getD [])[step.alternative]?.getD []
  "    " ++ String.singleton step.nonterminal ++ " -> " ++ r.display

/-- the verdict on an input and, if `trace` asks for it, its derivation or what is wrong with it -/
def verdictLines (g : Grammar) (start : Char) (trace : Bool) (input : List Char) : List String :=
  let quoted := String.ofList (Text.quote input)
  match g.derive input start with
  | .ok d => (quoted ++ ": Accepted") :: if trace then d.map (stepLine g) else []
  | .error r => (quoted ++ ": Rejected") :: if trace then ["    " ++ r.message] else []

/-- a line for each of `amount` sentences, up to one that cannot be generated -/
def sentenceLines (g : Grammar) (d : Draws) (maxDepth : Nat) (start : Char) : (amount position : Nat) → Report
  | 0, _ => .done
  | amount + 1, position =>
    let run := Sentence.generate g d maxDepth start position
    match run.result with
    | .error e => .failed [(⟨Grammar.unnamed, e⟩ : Located GenerationError).display]
    | .ok text => (sentenceLines g d maxDepth start amount run.position).after [String.ofList text]

/-- a line for each token, and an empty one after them -/
def tokenLines (text : List Char) : List String := (Code.tokenize text).map Code.Token.display ++ [""]

/-- what a command comes to -/
def Command.run (s : Surroundings) : Command → Report
  | .check file =>
    withGrammar s file fun g => ifSimple g file ⟨0, ["The grammar is simple"], []⟩
  | .recognize file start trace words =>
    withGrammar s file fun g => ifSimple g file <|
      withStart g file start fun start => answerEach (verdictLines g start trace) (inputs s words)
  | .generate file start amount seed maxDepth =>
    withGrammar s file fun g =>
      withStart g file start fun start =>
        sentenceLines g (seed.elim s.chance Draws.seeded) maxDepth start amount 0
  | .scan text => answerEach tokenLines (inputs s text.toList)

end SimpleGrammar.CommandLine
