/-
The program: arguments, files and streams of the process handed to the command, and its report handed back.
-/
import SimpleGrammar.CommandLine.Run

open SimpleGrammar SimpleGrammar.CommandLine

/-- the fault that an error of the system stands for; its number may come negated -/
def faultOf : IO.Error → FileFault
  | .noFileOrDirectory .. => .missing
  | .permissionDenied .. => ⟨.permissionDenied, "Permission denied (os error 13)"⟩
  | .inappropriateType _ number _ => if min number (-number) = 21 then .isDirectory else .notDirectory
  | e@(.invalidArgument _ number _) => if min number (-number) = 36 then .nameTooLong else ⟨.other, toString e⟩
  | e => ⟨.other, toString e⟩

/-- the bytes of the file, or why it cannot be read; a directory is refused at once, where asking it for lines would
not end -/
def fileBytes (name : String) : IO (Except FileFault (List UInt8)) := do
  try
    return .ok (← IO.FS.readBinFile name).toList
  catch e => return .error (faultOf e)

/-- all of standard input -/
def standardInput : IO (List UInt8) := do
  let stream ← IO.getStdin
  let mut bytes := ByteArray.empty
  repeat
    let more ← stream.read 65536
    if more.isEmpty then break
    bytes := bytes ++ more
  return bytes.toList

/-- a source of draws that differs from run to run -/
def chance : IO Draws := do
  let bytes ← IO.getRandomBytes 8
  return .seeded (bytes.toList.foldl (fun seed b => seed * 256 + b.toUInt64) 0)

/-- carry out a command with what it needs of its surroundings -/
def carryOut (command : Command) : IO Report := do
  let unread : Surroundings := ⟨fun _ => .error .missing, [], ← chance⟩
  match command with
  | .check file | .generate file .. =>
    let content ← fileBytes file
    return command.run { unread with file := fun _ => content }
  | .recognize file _ _ words =>
    let content ← fileBytes file
    let input ← if words.isEmpty then standardInput else pure []
    return command.run { unread with file := fun _ => content, input }
  | .scan text =>
    let input ← if text.isNone then standardInput else pure []
    return command.run { unread with input }

def main (args : List String) : IO UInt32 := do
  match Command.ofArguments args with
  | .error e =>
    if e.status = 0 then IO.println e.message else IO.eprintln e.message
    return e.status.toUInt32
  | .ok command =>
    let report ← carryOut command
    IO.print report.stdout
    IO.eprint report.stderr
    return report.status.toUInt32
