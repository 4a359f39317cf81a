/-
A directory of files held in memory, for a command that is to run without touching the disk.

Files are listed by their paths below the directory, and a subdirectory is there when some file lies in it. A file name
is walked one component at a time, from left to right: an empty component and a single dot stay where they are, two dots
lead to the directory above, anything else to what has that name. Nothing leads on from a file, not even a dot, so
`d/../g` names `g` if `d` is a directory, and nothing if `d` is a file or is not there.

Nothing is known of what lies outside the directory: names that lead there name no file.

A name may also lead to a directory. It can be opened like a file, but whoever asks it for lines gets the same fault
instead of each of them and never comes to the last one. There is no such file here to go on asking: the name is
answered with the fault once, and nothing is said of what becomes of a reader that does not stop at it.
-/
import SimpleGrammar.Source.LoadError

namespace SimpleGrammar.CommandLine

/-- a stretch of a file name between slashes -/
abbrev Component := List Char

/-- how many bytes a file name may have -/
def nameLimit : Nat := 4095

/-- how many bytes a component may have -/
def componentLimit : Nat := 255

structure Directory where
  /-- the files by their paths, outermost component first -/
  files : List (List Component × List UInt8)

/-- where a path leads -/
inductive Place where
  /-- the directory or one below it, by its path -/
  | directory (path : List Component)
  | file (content : List UInt8)
  | outside
deriving DecidableEq, Repr

namespace Directory

/-- components that lead nowhere else -/
def stays (c : Component) : Bool := c = [] || c = ['.']

/-- the directory of files by their names -/
def ofFiles (files : List (String × List UInt8)) : Directory :=
  ⟨files.map fun f => ((Text.pieces '/' f.1.toList).filter (! stays ·), f.2)⟩

/-- what there is at a path below the directory -/
def at? (d : Directory) (path : List Component) : Option Place :=
  match d.files.lookup path with
  | some content => some (.file content)
  | none => if d.files.any fun f => path.isPrefixOf f.1 then some (.directory path) else none

/-- what a place has under the name `c`, given what was found there -/
def enter (c : Component) (found : Option Place) : Except FileFault Place :=
  if (String.ofList c).utf8ByteSize > componentLimit then .error .nameTooLong
  else found.elim (.error .missing) .ok

/-- where a component leads from a place -/
def step (d : Directory) (here : Place) (c : Component) : Except FileFault Place :=
  match here with
  | .file _ => .error .notDirectory
  | .outside => if stays c || c = ['.', '.'] then .ok .outside else enter c none
  | .directory path =>
    if stays c then .ok here
    else if c = ['.', '.'] then .ok (if path = [] then .outside else .directory path.dropLast)
    else enter c (d.at? (path ++ [c]))

/-- where components lead from a place -/
def walk (d : Directory) (here : Place) (path : List Component) : Except FileFault Place :=
  path.foldlM d.step here

/-- the bytes of the file of a name, or why there is none to read: for a directory the fault of its first line -/
def read (d : Directory) (name : String) : Except FileFault (List UInt8) :=
  if name.utf8ByteSize > nameLimit then .error .nameTooLong
  else
    let start := if name.toList.head? = some '/' then .outside else .directory []
    match d.walk start (Text.pieces '/' name.toList) with
    | .error fault => .error fault
    | .ok (.file content) => .ok content
    | .ok _ => .error .isDirectory

end Directory

end SimpleGrammar.CommandLine
