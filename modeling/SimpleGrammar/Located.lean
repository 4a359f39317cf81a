/-
Findings and where they were made.

A location is a file and a line; line 0 is the file as a whole. A finding is located by pairing it with a location, and
each kind of finding says in one function (`Explained.message`) what it has to say.

- `Location.components`: a file name names a place by its components alone, so doubled and trailing slashes and inner
  single dots do not matter when two locations are compared.
-/
import SimpleGrammar.Text.Pieces

namespace SimpleGrammar

/-- kinds of findings with a text for the user -/
class Explained (α : Type) where
  message : α → String

structure Location where
  file : String
  /-- counted from 1; 0 for the file as a whole -/
  line : Nat
deriving DecidableEq, Repr

namespace Location

/-- all of `file` -/
def whole (file : String) : Location := ⟨file, 0⟩

/-- the file, and the line after a colon unless the whole file is meant -/
def display (l : Location) : String :=
  if l.line = 0 then l.file else s!"{l.file}:{l.line}"

/-- the components of a file name, an initial slash being one of its own; a single dot counts only at the beginning -/
def components (file : String) : List (List Char) :=
  match Text.pieces '/' file.toList with
  | [] => []
  | first :: rest =>
    let inner := rest.filter fun part => part ≠ [] ∧ part ≠ ['.']
    if first = [] then
      if rest = [] then [] else ['/'] :: inner
    else first :: inner

/-- the same line of files with the same components -/
def sameAs (a b : Location) : Bool := components a.file = components b.file && a.line = b.line

end Location

structure Located (α : Type) where
  location : Location
  cause : α
deriving DecidableEq, Repr

namespace Located

variable {α : Type} [Explained α]

def message (e : Located α) : String := Explained.message e.cause

/-- the location in red and brackets, then the message -/
def display (e : Located α) : String :=
  "\x1b[31;49;1m[" ++ e.location.display ++ "]\x1b[39;49;1m  " ++ e.message ++ "\x1b[0m"

end Located

end SimpleGrammar
