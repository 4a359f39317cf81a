/-
The words of a command line.

The first word that is no option names a command, and each command takes options and positional arguments of its own. An
option's value may be attached to it (`-sB`, `-s=B`, `--start=B`) or be the next word, which then must not look like an
option; a lone dash does not. After `--` every word is positional.

Arguments are judged from left to right, but words that are collected for an argument are judged only when they are
complete: when another argument begins or the words end. A word that no argument takes is reported at once, whatever is
still to be judged.
-/
import SimpleGrammar.Sentence.Generation
import SimpleGrammar.Text.Decimal

namespace SimpleGrammar.CommandLine

/-- the commands with their arguments -/
inductive Command where
  | check (file : String)
  | recognize (file : String) (start : Option Char) (trace : Bool) (inputs : List String)
  | generate (file : String) (start : Option Char) (amount : Nat) (seed : Option UInt64) (maxDepth : Nat)
  | scan (text : Option String)
deriving DecidableEq, Repr

/-- why words give no command to carry out -/
inductive UsageError where
  /-- help was asked for -/
  | displayHelp
  /-- the version was asked for -/
  | displayVersion
  /-- there are no words -/
  | missingCommand
  /-- a word that should name a command does not -/
  | invalidSubcommand
  /-- a command lacks a positional argument it cannot do without -/
  | missingRequiredArgument
  /-- an unknown option, or a word too many -/
  | unknownArgument
  /-- an option given twice -/
  | argumentConflict
  /-- an option without its value, or an empty file name -/
  | invalidValue
  /-- a value that cannot be read -/
  | valueValidation
  /-- a value given to an option that takes none -/
  | tooManyValues
deriving DecidableEq, Repr

/-- help and version are what the user asked for, so they are no failure -/
def UsageError.status : UsageError → Nat
  | displayHelp => 0
  | displayVersion => 0
  | _ => 2

/-- the commands and their arguments in a few lines -/
def usage : String :=
  "Usage: check FILE\n" ++
  "       recognize [-s SYMBOL] [--trace] FILE [INPUT...]\n" ++
  "       generate [-s SYMBOL] [-n AMOUNT] [--seed SEED] [--max-depth DEPTH] FILE\n" ++
  "       scan [TEXT]"

def UsageError.message : UsageError → String
  | displayHelp => usage
  | displayVersion => "simplegram 0.1.0"
  | missingCommand => usage
  | invalidSubcommand => "error: unrecognized subcommand"
  | missingRequiredArgument => "error: a required argument was not provided"
  | unknownArgument => "error: unexpected argument found"
  | argumentConflict => "error: an option cannot be used multiple times"
  | invalidValue => "error: a value is required"
  | valueValidation => "error: invalid value"
  | tooManyValues => "error: unexpected value for an option that takes none"

/-! ## Words -/

/-- how a word looks before it is known what it is for -/
inductive Shape where
  /-- two dashes: no options from here on -/
  | stop
  /-- two dashes and a name, and what follows an equals sign -/
  | long (name : List Char) (value : Option (List Char))
  /-- a dash and letters -/
  | short (letters : List Char)
  | plain
deriving DecidableEq, Repr

def shape : List Char → Shape
  | ['-', '-'] => .stop
  | '-' :: '-' :: rest =>
    .long (rest.takeWhile (· ≠ '='))
      (match rest.dropWhile (· ≠ '=') with
        | [] => none
        | _ :: value => some value)
  | '-' :: c :: letters => .short (c :: letters)
  | _ => .plain

/-! ## Values -/

/-- the arguments that commands take -/
inductive Slot where
  | help
  | file
  | start
  | trace
  | amount
  | seed
  | maxDepth
  | inputs
  | text
deriving DecidableEq, Repr

/-- the arguments judged so far -/
structure Draft where
  file : Option String
  start : Option Char
  trace : Bool
  amount : Option Nat
  seed : Option UInt64
  maxDepth : Option Nat
  inputs : List String
  text : Option String
deriving DecidableEq, Repr

namespace Draft

def empty : Draft := ⟨none, none, false, none, none, none, [], none⟩

/-- the value of an argument that takes one and is given once -/
def single {α : Type} (earlier : Option α) (values : List (List Char)) (read : List Char → Except UsageError α) :
    Except UsageError α :=
  match values with
  | [] => .error .invalidValue
  | v :: _ => if earlier.isSome then .error .argumentConflict else read v

/-- exactly one character -/
def readChar : List Char → Except UsageError Char
  | [c] => .ok c
  | _ => .error .valueValidation

/-- a number below 2^32; a minus sign may stand before zero -/
def readAmount (v : List Char) : Except UsageError Nat :=
  match Text.readInt v with
  | some (.ofNat n) => if n < UInt32.size then .ok n else .error .valueValidation
  | _ => .error .valueValidation

/-- a number below 2^64 -/
def readWord (v : List Char) : Except UsageError Nat :=
  match Text.readNat v with
  | some n => if n < UInt64.size then .ok n else .error .valueValidation
  | none => .error .valueValidation

/-- a file name, which has a character at least -/
def readFile (v : List Char) : Except UsageError String :=
  if v = [] then .error .invalidValue else .ok (String.ofList v)

/-- the draft with the words collected for an argument judged -/
def accept (d : Draft) (slot : Slot) (values : List (List Char)) : Except UsageError Draft :=
  match slot with
  | .help => .error .displayHelp
  | .trace => if d.trace then .error .argumentConflict else .ok { d with trace := true }
  | .file => (single d.file values readFile).map fun v => { d with file := some v }
  | .start => (single d.start values readChar).map fun v => { d with start := some v }
  | .amount => (single d.amount values readAmount).map fun v => { d with amount := some v }
  | .seed =>
    (single d.seed values fun v => (readWord v).map Nat.toUInt64).map fun v => { d with seed := some v }
  | .maxDepth => (single d.maxDepth values readWord).map fun v => { d with maxDepth := some v }
  | .inputs => .ok { d with inputs := d.inputs ++ values.map String.ofList }
  | .text => (single d.text values (fun v => .ok (String.ofList v))).map fun v => { d with text := some v }

end Draft

/-! ## The arguments of a command -/

structure Flag where
  slot : Slot
  long : String
  short : Option Char
  takesValue : Bool
deriving DecidableEq, Repr

/-- what a command is called and which arguments it takes -/
structure Form where
  name : String
  flags : List Flag
  /-- positional arguments in order; `inputs` takes all words that are left -/
  places : List Slot
  /-- the command of a complete draft -/
  build : Draft → Except UsageError Command

def helpFlag : Flag := ⟨.help, "help", some 'h', false⟩

def startFlag : Flag := ⟨.start, "start", some 's', true⟩

/-- the file of a draft, which most commands cannot do without -/
def Draft.needFile (d : Draft) : Except UsageError String :=
  match d.file with
  | some file => .ok file
  | none => .error .missingRequiredArgument

def forms : List Form :=
  [⟨"check", [helpFlag], [.file], fun d => d.needFile.map .check⟩,
   ⟨"recognize", [helpFlag, startFlag, ⟨.trace, "trace", none, false⟩], [.file, .inputs],
    fun d => d.needFile.map fun file => .recognize file d.start d.trace d.inputs⟩,
   ⟨"generate", [helpFlag, startFlag, ⟨.amount, "amount", some 'n', true⟩, ⟨.seed, "seed", none, true⟩,
      ⟨.maxDepth, "max-depth", none, true⟩], [.file],
    fun d => d.needFile.map fun file =>
      .generate file d.start (d.amount.getD 1) d.seed (d.maxDepth.getD Sentence.defaultMaxDepth)⟩,
   ⟨"scan", [helpFlag], [.text], fun d => .ok (.scan d.text)⟩]

/-- how far the words of a command have been read -/
structure Progress where
  draft : Draft
  /-- the argument for which words are being collected, and the words -/
  pending : Option (Slot × List (List Char))
  /-- the positional arguments still open -/
  places : List Slot
  /-- `--` has been read -/
  stopped : Bool

namespace Progress

/-- what is pending judged -/
def settle (p : Progress) : Except UsageError Progress :=
  match p.pending with
  | none => .ok p
  | some (slot, values) => (p.draft.accept slot values).map fun draft => { p with draft, pending := none }

/-- a flag without a separate value: what is pending is judged before it -/
def give (p : Progress) (slot : Slot) (values : List (List Char)) : Except UsageError Progress := do
  let p ← p.settle
  let draft ← p.draft.accept slot values
  return { p with draft }

/-- an option whose value is to be the next word -/
def await (p : Progress) (slot : Slot) : Except UsageError Progress := do
  let p ← p.settle
  return { p with pending := some (slot, []) }

/-- a word for the next positional argument -/
def place (p : Progress) (word : List Char) : Except UsageError Progress :=
  match p.places with
  | [] => .error .unknownArgument
  | .inputs :: _ =>
    match p.pending with
    | some (.inputs, words) => .ok { p with pending := some (.inputs, words ++ [word]) }
    | _ => do
      let p ← p.settle
      return { p with pending := some (.inputs, [word]) }
  | slot :: places => do
    let p ← p.settle
    return { p with pending := some (slot, [word]), places }

/-- the letters after a dash; the first that takes a value takes the letters after it, an equals sign dropped -/
def letters (flags : List Flag) (p : Progress) : List Char → Except UsageError Progress
  | [] => .ok p
  | c :: rest =>
    match flags.find? (·.short = some c) with
    | none => .error .unknownArgument
    | some flag =>
      if flag.takesValue then
        match rest with
        | [] => p.await flag.slot
        | '=' :: value => p.give flag.slot [value]
        | value => p.give flag.slot [value]
      else do
        let p ← p.give flag.slot []
        p.letters flags rest

/-- a long option -/
def long (flags : List Flag) (p : Progress) (name : List Char) (value : Option (List Char)) :
    Except UsageError Progress :=
  match flags.find? (·.long.toList = name), value with
  | none, _ => .error .unknownArgument
  | some flag, none => if flag.takesValue then p.await flag.slot else p.give flag.slot []
  | some flag, some v => if flag.takesValue then p.give flag.slot [v] else .error .tooManyValues

def read (flags : List Flag) (p : Progress) (word : List Char) : Except UsageError Progress :=
  if p.stopped then p.place word
  else
    match shape word with
    | .stop => .ok { p with stopped := true }
    | .long name value => p.long flags name value
    | .short letters => p.letters flags letters
    | .plain =>
      match p.pending with
      | some (slot, []) => .ok { p with pending := some (slot, [word]) }
      | _ => p.place word

end Progress

/-- the command that the words after its name give -/
def Form.read (form : Form) (words : List (List Char)) : Except UsageError Command := do
  let start : Progress := ⟨.empty, none, form.places, false⟩
  let p ← words.foldlM (Progress.read form.flags) start
  let p ← p.settle
  form.build p.draft

/-! ## The whole line -/

def form? (name : List Char) : Option Form := forms.find? (·.name.toList = name)

/-- whether the word names a command; asking for help is one -/
def isCommandName (word : List Char) : Bool := (form? word).isSome || word = "help".toList

/-- the words after `help`: the name of a command, or none -/
def readHelp : List (List Char) → UsageError
  | [] => .displayHelp
  | [word] => if isCommandName word then .displayHelp else .invalidSubcommand
  | _ => .invalidSubcommand

/-- the word that names the command, and those after it -/
def readCommand (word : List Char) (rest : List (List Char)) : Except UsageError Command :=
  if word = "help".toList then .error (readHelp rest)
  else
    match form? word with
    | some form => form.read rest
    | none => .error .invalidSubcommand

/-- the words of a command line, the program's own name not among them -/
def readWords : List (List Char) → Except UsageError Command
  | [] => .error .missingCommand
  | word :: rest =>
    match shape word with
    | .stop =>
      -- a command cannot be named after `--`
      match rest with
      | [] => .error .missingCommand
      | word :: _ => .error (if isCommandName word then .unknownArgument else .invalidSubcommand)
    | .long name value =>
      if name = "help".toList ∨ name = "version".toList then
        match value with
        | some _ => .error .tooManyValues
        | none => .error (if name = "help".toList then .displayHelp else .displayVersion)
      else .error .unknownArgument
    | .short ('h' :: _) => .error .displayHelp
    | .short ('V' :: _) => .error .displayVersion
    | .short _ => .error .unknownArgument
    | .plain => readCommand word rest

/-- the command that the arguments of the program give -/
def Command.ofArguments (args : List String) : Except UsageError Command := readWords (args.map String.toList)

end SimpleGrammar.CommandLine
