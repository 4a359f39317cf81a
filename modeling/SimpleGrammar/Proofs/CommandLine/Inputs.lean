/-
Inputs on the command line and on standard input.

A command that is given no words answers the lines of standard input as it would answer the same words. Each input is
answered before the next is looked at. So a line that is no text ends the report and takes nothing back: what the
lines before it are answered stands, and whatever comes after it makes no difference.

- `answerEach_append_none`: the report of inputs up to one that cannot be read.
- `inputs_encode`: words written as lines are the same inputs.
- `Recognizing`, `run_recognize`: when a command comes to recognize inputs, and what it does then.
- `recognize_streams`: recognizing words, lines, and lines up to one that cannot be read.
-/
import SimpleGrammar.CommandLine.Run
import SimpleGrammar.Proofs.Recognition.Language
import SimpleGrammar.Proofs.Simplicity.Violations
import SimpleGrammar.Proofs.Text.Utf8

namespace SimpleGrammar.CommandLine

variable {s : Surroundings} {file : String} {given : Option Char} {trace : Bool} {words : List String} {g : Grammar}
  {start : Char}

/-! ## Answers one after the other -/

theorem answerEach_map_some (answer : List Char → List String) (texts : List (List Char)) :
    answerEach answer (texts.map some) = ⟨0, texts.flatMap answer, []⟩ := by
  induction texts with
  | nil => rfl
  | cons text texts ih =>
    rw [List.map_cons, answerEach, ih]
    rfl

/-- **Up to an unreadable input.** The answers before it stand, and no input after it is looked at. -/
theorem answerEach_append_none (answer : List Char → List String) {lines : List (Option (List Char))} (h : none ∉ lines)
    (later : List (Option (List Char))) :
    answerEach answer (lines ++ none :: later) =
      ⟨2, (answerEach answer lines).out, [(FileFault.notText.locate "<stdin>").display]⟩ := by
  induction lines with
  | nil => rfl
  | cons line lines ih =>
    cases line with
    | none => exact absurd List.mem_cons_self h
    | some text =>
      rw [List.cons_append, answerEach, ih fun hmem => h (List.mem_cons_of_mem _ hmem)]
      rfl

/-! ## Words and lines -/

theorem inputs_of_ne_nil (h : words ≠ []) : inputs s words = words.map fun w => some w.toList := if_neg h

theorem inputs_nil (s : Surroundings) : inputs s [] = Text.decodeLines s.input := if_pos rfl

/-- the bytes of words, each on a line of its own -/
def wordLines (words : List String) : List UInt8 := Text.encode (words.flatMap fun w => w.toList ++ ['\n'])

/-- **Words written as lines.** They are the same inputs, if none of them has a line end or ends in what would be part
of one. -/
theorem inputs_encode (hne : words ≠ []) (h : ∀ w ∈ words, '\n' ∉ w.toList ∧ w.toList.getLast? ≠ some '\r') :
    inputs { s with input := wordLines words } [] = inputs s words := by
  have hnewline : ∀ text ∈ words.map String.toList, '\n' ∉ text := List.forall_mem_map.2 fun w hw => (h w hw).1
  have hreturn : ∀ text ∈ words.map String.toList, text.getLast? ≠ some '\r' :=
    List.forall_mem_map.2 fun w hw => (h w hw).2
  have hlines := Text.decodeLines_encode_flatMap hnewline hreturn
  rw [List.flatMap_map, List.map_map] at hlines
  rw [inputs_of_ne_nil hne, inputs_nil]
  exact hlines

/-! ## Recognizing -/

/-- the grammar in the file is loaded as `g` and is simple, and there is a symbol to start from -/
structure Recognizing (s : Surroundings) (file : String) (given : Option Char) (g : Grammar) (start : Char) : Prop where
  loaded : Source.loadFile file (s.file file) = .ok g
  simple : g.isSimple = true
  start_eq : given.or g.start = some start

/-- the inputs come into play where they are recognized, and nowhere else -/
theorem run_recognize_congr {t : Surroundings} {words' : List String} (hfile : s.file = t.file)
    (hinputs : inputs s words = inputs t words') :
    (Command.recognize file given trace words).run s = (Command.recognize file given trace words').run t := by
  simp only [Command.run, withGrammar, hfile, hinputs]

/-- with a simple grammar and a start symbol every input has its verdict -/
theorem run_recognize (h : Recognizing s file given g start) (trace : Bool) (words : List String) :
    (Command.recognize file given trace words).run s = answerEach (verdictLines g start trace) (inputs s words) := by
  have hcheck : g.check (.whole file) = [] := Grammar.check_eq_nil_iff.2 h.simple
  simp only [Command.run, withGrammar, h.loaded, ifSimple, hcheck, withStart, h.start_eq]

/-- what is read from standard input has no part in whether inputs are recognized -/
theorem Recognizing.of_input (h : Recognizing s file given g start) (input : List UInt8) :
    Recognizing { s with input } file given g start := ⟨h.loaded, h.simple, h.start_eq⟩

/-- **Words and lines.** Whatever the file, words are recognized as the lines of standard input are on which they
stand, if there are some, none of them has a line end and none ends in a carriage return. And where inputs are
recognized, a line of standard input that is no text ends the report with status 2 and that fault alone on standard
error. On standard output stands what the lines before it come to by themselves, whatever comes after it. -/
theorem recognize_streams (s : Surroundings) (file : String) (given : Option Char) (trace : Bool) :
    (∀ words : List String, words ≠ [] → (∀ w ∈ words, '\n' ∉ w.toList ∧ w.toList.getLast? ≠ some '\r') →
      (Command.recognize file given trace words).run s =
        (Command.recognize file given trace []).run { s with input := wordLines words }) ∧
    ((∃ g start, Recognizing s file given g start) →
      ∀ (before : List (List UInt8)) (bad tail : List UInt8),
        (∀ line ∈ before, 0x0a ∉ line ∧ Text.decode line ≠ none) →
        0x0a ∉ bad → Text.decode bad = none → (tail = [] ∨ tail.head? = some 0x0a) →
        (Command.recognize file given trace []).run { s with input := before.flatMap (· ++ [0x0a]) ++ bad ++ tail } =
          ⟨2, ((Command.recognize file given trace []).run { s with input := before.flatMap (· ++ [0x0a]) }).out,
            [(⟨.whole "<stdin>", .file .notText⟩ : Located LoadError).display]⟩) := by
  constructor
  · intro words hne h
    exact run_recognize_congr rfl (inputs_encode hne h).symm
  · rintro ⟨g, start, hg⟩ before bad tail hbefore hline hbad htail
    obtain ⟨hreadable, later, hlater⟩ := Text.exists_decodeLines_unreadable hbefore hline hbad htail
    rw [run_recognize (hg.of_input _), run_recognize (hg.of_input _), inputs_nil, inputs_nil, hlater,
      answerEach_append_none _ hreadable]
    rfl

/-- a file with a grammar for `aab` and `c` -/
def rightLinearFile : Surroundings :=
  ⟨fun _ => .ok (Text.encode "S -> aB | c\nB -> aB | b".toList), [], .ofList []⟩

theorem recognizing_rightLinearFile : Recognizing rightLinearFile "pairs" none rightLinear 'S' where
  loaded := by cbv
  simple := by decide
  start_eq := rfl

/-- two words, and as lines with an unreadable one between them -/
theorem recognize_streams_pairs :
    Recognizing rightLinearFile "pairs" none rightLinear 'S' ∧
    (Command.recognize "pairs" none false ["aab", "c"]).run rightLinearFile =
      (Command.recognize "pairs" none false []).run { rightLinearFile with input := wordLines ["aab", "c"] } ∧
    (Command.recognize "pairs" none false []).run
        { rightLinearFile with input := [0x61, 0x61, 0x62, 0x0a, 0xff, 0xfe, 0x0a, 0x63, 0x0a] } =
      ⟨2, ["\"aab\": Accepted"],
        ["\x1b[31;49;1m[<stdin>]\x1b[39;49;1m  File error: stream did not contain valid UTF-8\x1b[0m"]⟩ := by
  obtain ⟨hwords, hlines⟩ := recognize_streams rightLinearFile "pairs" none false
  refine ⟨recognizing_rightLinearFile, hwords _ (List.cons_ne_nil _ _) (by decide), ?_⟩
  have hreport := hlines ⟨_, _, recognizing_rightLinearFile⟩ [[0x61, 0x61, 0x62]] [0xff, 0xfe] [0x0a, 0x63, 0x0a]
    (by decide) (by decide) (by decide) (.inr rfl)
  have hout : ((Command.recognize "pairs" none false []).run
      { rightLinearFile with input := [0x61, 0x61, 0x62, 0x0a] }).out = ["\"aab\": Accepted"] := by
    rw [run_recognize (recognizing_rightLinearFile.of_input _), inputs_nil]
    cbv
  refine hreport.trans ?_
  rw [← hout]
  rfl

end SimpleGrammar.CommandLine
