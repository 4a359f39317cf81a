/-
Loading grammar text.

Lines are numbered from 1, blank lines and comments included. Every malformed rule line is reported, and when there is
one nothing else is. Otherwise every reference to a nonterminal that no line defines is reported. A text without
faults is the grammar of its rule lines. It is made in two passes: the nonterminals are declared line by line, so that
the first is the start symbol, and then each is given the alternatives of all its lines together, in whatever order
the nonterminals come.

- `loadText`: text that is at hand as characters.
- `loadFile`: the bytes of a file, line by line. An unreadable line is a fault of the file as a whole, even where a
  comment might have been meant, and counts as a line.
-/
import SimpleGrammar.Grammar.Basic
import SimpleGrammar.Source.References
import SimpleGrammar.Text.Utf8

namespace SimpleGrammar.Source

/-- a line of a file: its characters, or why it cannot be read -/
abbrev SourceLine := Except FileFault (List Char)

/-- what a line contributes: nothing, a definition or a fault -/
def readLine (file : String) (line : SourceLine) (number : Nat) : Option (Except (Located LoadError) Definition) :=
  match line with
  | .error fault => some (.error (fault.locate file))
  | .ok text =>
    if isRuleLine text then
      match RuleLine.read text with
      | .error e => some (.error ⟨⟨file, number⟩, e⟩)
      | .ok rule => some (.ok ⟨number, rule⟩)
    else none

/-- what the lines of a file contribute, in line order -/
def readLines (file : String) (lines : List SourceLine) : List (Except (Located LoadError) Definition) :=
  (lines.zipIdx 1).filterMap fun l => readLine file l.1 l.2

/-- the faults among the contributions -/
def faults (found : List (Except (Located LoadError) Definition)) : List (Located LoadError) :=
  found.filterMap fun
    | .error e => some e
    | .ok _ => none

/-- the definitions among the contributions -/
def definitions (found : List (Except (Located LoadError) Definition)) : List Definition :=
  found.filterMap fun
    | .error _ => none
    | .ok d => some d

/-- the nonterminals of rule lines, without alternatives -/
def declared (defs : List Definition) : Grammar := defs.foldl (fun g d => g.declare d.rule.nonterminal) .empty

/-- the grammar in which the nonterminal of each group has the alternatives of the group -/
def assignGroups (g : Grammar) (groups : List Group) : Grammar :=
  groups.foldl (fun g group => g.assign group.1 (Group.alternatives group)) g

/-- the grammar of rule lines -/
def grammarOf (defs : List Definition) : Grammar := assignGroups (declared defs) (groups defs).entries

/-- the grammar that the lines of a file define, or all that is wrong with them -/
def loadLines (file : String) (lines : List SourceLine) : Except (List (Located LoadError)) Grammar :=
  let found := readLines file lines
  if faults found ≠ [] then .error (faults found)
  else
    let missing := undefinedReferences (groups (definitions found)).entries
    if missing ≠ [] then .error (missing.map fun m => ⟨⟨file, m.1⟩, .undefinedNonterminal m.2⟩)
    else .ok (grammarOf (definitions found))

/-- the grammar written in `text`; `origin` names the text in locations -/
def loadText (origin : String) (text : List Char) : Except (List (Located LoadError)) Grammar :=
  loadLines origin ((Text.lines '\n' '\r' text).map .ok)

/-- the lines of the bytes of a file -/
def sourceLines (bytes : List UInt8) : List SourceLine :=
  (Text.decodeLines bytes).map fun
    | none => .error .notText
    | some text => .ok text

/-- the grammar written in the file `name`, whose bytes are given if the file could be opened -/
def loadFile (name : String) (content : Except FileFault (List UInt8)) : Except (List (Located LoadError)) Grammar :=
  match content with
  | .error fault => .error [fault.locate name]
  | .ok bytes => loadLines name (sourceLines bytes)

end SimpleGrammar.Source
