/-
What can be wrong with grammar text.

- `LoadError.sameKind`: two findings are of one kind when they would be mended alike: the text of a file fault does not
  count, the nonterminal that lacks a definition does.
-/
import SimpleGrammar.Located
import SimpleGrammar.Symbol

namespace SimpleGrammar

inductive FileFaultKind where
  | notFound
  | permissionDenied
  /-- the bytes are not text -/
  | invalidData
  | other
deriving DecidableEq, Repr

/-- why a file or a line of it could not be read -/
structure FileFault where
  kind : FileFaultKind
  message : String
deriving DecidableEq, Repr

namespace FileFault

/-- the file does not exist -/
def missing : FileFault := ⟨.notFound, "No such file or directory (os error 2)"⟩

/-- the name goes on after a file as if it were a directory -/
def notDirectory : FileFault := ⟨.other, "Not a directory (os error 20)"⟩

/-- the name is that of a directory; every line asked of it has this fault, and there is no last line -/
def isDirectory : FileFault := ⟨.other, "Is a directory (os error 21)"⟩

/-- the name or a component of it has too many bytes -/
def nameTooLong : FileFault := ⟨.other, "File name too long (os error 36)"⟩

/-- the bytes of a line spell no text -/
def notText : FileFault := ⟨.invalidData, "stream did not contain valid UTF-8"⟩

end FileFault

inductive LoadError where
  /-- a rule line has no arrow after its nonterminal -/
  | missingArrow
  /-- a second arrow in a rule line -/
  | unexpectedArrow
  /-- a rule line begins with something other than a nonterminal -/
  | missingNonterminal
  /-- ε written next to other symbols -/
  | embeddedEpsilon
  /-- a nonterminal is used that no line defines -/
  | undefinedNonterminal (n : Char)
  /-- a bar was left inside an alternative -/
  | unsplitBar
  /-- a line without tokens was read as a rule -/
  | noTokens
  | file (fault : FileFault)
deriving DecidableEq, Repr

namespace LoadError

def message : LoadError → String
  | missingArrow => "Expected `->` after nonterminal"
  | unexpectedArrow => "Unexpected `->` encountered"
  | missingNonterminal => "Tried to define something other than a nonterminal"
  | embeddedEpsilon => s!"`{epsilon}` must be an alternative on its own"
  | undefinedNonterminal n => s!"Could not find definition for `{n}`"
  | unsplitBar => "Rewrite was not fully split (this is a problem with simplegram, not the grammar)"
  | noTokens =>
    "Blank line encountered in rule parser (this is a problem with simplegram, not the grammar)"
  | file fault => "File error: " ++ fault.message

instance : Explained LoadError := ⟨message⟩

/-- equal but for the text of a file fault -/
def sameKind : LoadError → LoadError → Bool
  | file a, file b => a.kind = b.kind
  | a, b => a = b

end LoadError

/-- the fault as a finding about the whole file, whatever line it came from -/
def FileFault.locate (fault : FileFault) (file : String) : Located LoadError := ⟨.whole file, .file fault⟩

end SimpleGrammar
