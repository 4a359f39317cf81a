/-
What the bytes of a file mean.

Bytes that are text load as that text. Other bytes never load: each line that is no text is a fault of the whole file,
where a comment or a blank line might stand as well as where a rule would, and each malformed rule line is at fault as
it is in a text, with unreadable lines among the lines before it.

- `sourceLines_eq`: the lines of bytes, one by one.
- `loadText_replicate`: a malformed line at a number, and nothing else.
- `loadFile_eq_loadText_or_faults`: bytes that are text, and bytes that are not.
-/
import Mathlib
import SimpleGrammar.Proofs.Source.Faults
import SimpleGrammar.Proofs.Text.Utf8

namespace SimpleGrammar

namespace Source

/-! ## Lines of bytes -/

/-- a line of bytes as a line of a file -/
def sourceLine (line : List UInt8) : SourceLine :=
  match Text.decode line with
  | none => .error .notText
  | some text => .ok text

theorem sourceLine_eq_error_iff {line : List UInt8} {fault : FileFault} :
    sourceLine line = .error fault ↔ Text.decode line = none ∧ fault = .notText := by
  rw [sourceLine]
  cases Text.decode line <;> simp [eq_comm (a := fault)]

theorem sourceLine_eq_ok_iff {line : List UInt8} {text : List Char} :
    sourceLine line = .ok text ↔ Text.decode line = some text := by
  rw [sourceLine]
  cases Text.decode line <;> simp

theorem sourceLines_eq (bytes : List UInt8) : sourceLines bytes = (Text.lines 0x0a 0x0d bytes).map sourceLine := by
  rw [sourceLines, Text.decodeLines, List.map_map]
  apply List.map_congr_left
  intro line _
  cases hdecode : Text.decode line <;> simp [sourceLine, hdecode]

/-- bytes that are text have the lines of the text -/
theorem sourceLines_of_decode {bytes : List UInt8} {text : List Char} (h : Text.decode bytes = some text) :
    sourceLines bytes = (Text.lines '\n' '\r' text).map .ok := by
  rw [sourceLines, Text.decodeLines_of_decode h, List.map_map]
  rfl

/-! ## Lines by themselves -/

/-- **One malformed line.** After `k` empty lines it is the only fault, at its number. -/
theorem loadText_replicate {line : List Char} {cause : LoadError} (origin : String) (k : Nat) (hline : '\n' ∉ line)
    (hrule : isRuleLine line = true) (hread : RuleLine.read line = .error cause) :
    loadText origin (List.replicate k '\n' ++ line) = .error [⟨⟨origin, k + 1⟩, cause⟩] := by
  have hne : line ≠ [] := by
    rintro rfl
    cases hrule
  have hempty : ((List.replicate k (.ok [])).zipIdx 1).filterMap (fun l => readLine origin l.1 l.2) = [] := by
    rw [List.filterMap_eq_nil_iff]
    intro l hl
    rw [List.eq_of_mem_replicate (List.fst_mem_of_mem_zipIdx hl)]
    rfl
  have hfaults : faults (readLines origin ((List.replicate k [] ++ [line]).map .ok)) = [⟨⟨origin, k + 1⟩, cause⟩] := by
    rw [readLines, List.map_append, List.map_replicate, List.zipIdx_append, List.filterMap_append, hempty,
      List.nil_append, List.length_replicate, Nat.add_comm]
    simp [faults, readLine, hrule, hread]
  rw [loadText, Text.lines_replicate_append hline hne, loadLines_of_faults, hfaults]
  rw [hfaults]
  exact List.cons_ne_nil _ _

/-- what is wrong with the line `n` of bytes: it is no text, or it has the fault that it has by itself at its number -/
theorem faultAt_sourceLine_iff {file : String} {bytes line : List UInt8} {n : Nat} {e : Located LoadError}
    (hn : (line, n) ∈ (Text.lines 0x0a 0x0d bytes).zipIdx 1) :
    FaultAt file (sourceLine line) n e ↔
      Text.decode line = none ∧ e = ⟨⟨file, 0⟩, .file .notText⟩ ∨
      ∃ text cause, Text.decode line = some text ∧ isRuleLine text = true ∧ RuleLine.read text = .error cause ∧
        e = ⟨⟨file, n⟩, cause⟩ ∧ loadText file (List.replicate (n - 1) '\n' ++ text) = .error [e] := by
  simp only [FaultAt, sourceLine_eq_error_iff, sourceLine_eq_ok_iff]
  constructor
  · rintro (⟨fault, ⟨hnone, rfl⟩, rfl⟩ | ⟨text, cause, htext, hrule, hread, rfl⟩)
    · exact .inl ⟨hnone, rfl⟩
    · have hline : '\n' ∉ text := by
        apply Text.newline_not_mem_of_decode htext
        exact Text.not_mem_of_mem_lines (exists_mem_zipIdx_iff.1 ⟨n, hn⟩)
      have halone := loadText_replicate file (n - 1) hline hrule hread
      rw [Nat.sub_add_cancel (List.le_snd_of_mem_zipIdx hn)] at halone
      exact .inr ⟨text, cause, htext, hrule, hread, rfl, halone⟩
  · rintro (⟨hnone, rfl⟩ | ⟨text, cause, htext, hrule, hread, rfl, -⟩)
    · exact .inl ⟨_, ⟨hnone, rfl⟩, rfl⟩
    · exact .inr ⟨text, cause, htext, hrule, hread, rfl⟩

/-! ## Files -/

/-- **The meaning of a file.** Bytes that are text load as the text does, or fail to with the same faults. With other
bytes the faults are, in line order, one of the whole file for each line that is no text, and for each other malformed
rule line the fault that it has in a text where it stands at the same number; unreadable lines are counted, and no
reference is reported. -/
theorem loadFile_eq_loadText_or_faults (name : String) (bytes : List UInt8) :
    (∀ text, Text.decode bytes = some text → loadFile name (.ok bytes) = loadText name text) ∧
    (Text.decode bytes = none → ∃ es, loadFile name (.ok bytes) = .error es ∧
      Listed (fun n e => ∃ line, (line, n) ∈ (Text.lines 0x0a 0x0d bytes).zipIdx 1 ∧
        (Text.decode line = none ∧ e = ⟨⟨name, 0⟩, .file ⟨.invalidData, FileFault.notText.message⟩⟩ ∨
          ∃ text cause, Text.decode line = some text ∧ isRuleLine text = true ∧ RuleLine.read text = .error cause ∧
            e = ⟨⟨name, n⟩, cause⟩ ∧ loadText name (List.replicate (n - 1) '\n' ++ text) = .error [e])) es ∧
      ∀ e ∈ es, ∀ n, e.cause ≠ .undefinedNonterminal n) := by
  constructor
  · intro text htext
    rw [loadFile, loadText, sourceLines_of_decode htext]
  · intro hbytes
    -- some line is no text, so there is a fault
    obtain ⟨line, hline, hnone⟩ : ∃ line ∈ Text.lines 0x0a 0x0d bytes, Text.decode line = none := by
      by_contra hall
      obtain ⟨text, htext⟩ := Text.decode_isSome_of_decodeLines fun hmem => hall (List.mem_map.1 hmem)
      rw [hbytes] at htext
      cases htext
    obtain ⟨n, hn⟩ := exists_mem_zipIdx_iff.2 hline
    have hfault : FaultAt name (sourceLine line) n ⟨⟨name, 0⟩, .file .notText⟩ :=
      .inl ⟨.notText, sourceLine_eq_error_iff.2 ⟨hnone, rfl⟩, rfl⟩
    obtain ⟨es, hes, hlisted, hreferences⟩ := loadLines_of_faultAt hn hfault
    rw [← sourceLines_eq] at hes
    refine ⟨es, hes, ?_, hreferences⟩
    apply hlisted.congr
    intro n e
    exact exists_congr fun line => and_congr_right faultAt_sourceLine_iff

/-- a comment that is no text, and a malformed line after it; mended, the bytes load -/
theorem loadFile_unreadable_comment :
    (∃ es, loadFile "sums" (.ok [0x3b, 0xff, 0x0a, 0x53, 0x0d, 0x0a]) = .error es ∧
      ⟨⟨"sums", 0⟩, .file .notText⟩ ∈ es ∧ ⟨⟨"sums", 2⟩, .missingArrow⟩ ∈ es) ∧
    loadFile "sums" (.ok [0x3b, 0x0a, 0x53, 0x2d, 0x3e, 0x0d, 0x0a]) = loadText "sums" ";\nS->\r\n".toList := by
  constructor
  · obtain ⟨-, hbytes⟩ := loadFile_eq_loadText_or_faults "sums" [0x3b, 0xff, 0x0a, 0x53, 0x0d, 0x0a]
    obtain ⟨es, hes, hlisted, -⟩ := hbytes (by decide)
    refine ⟨es, hes, hlisted.mem.2 ⟨1, [0x3b, 0xff], by decide, ?_⟩, hlisted.mem.2 ⟨2, [0x53], by decide, ?_⟩⟩
    · exact .inl ⟨by decide, rfl⟩
    · exact .inr ⟨['S'], .missingArrow, by decide, by decide, by decide, rfl, by decide⟩
  · obtain ⟨htext, -⟩ := loadFile_eq_loadText_or_faults "sums" [0x3b, 0x0a, 0x53, 0x2d, 0x3e, 0x0d, 0x0a]
    exact htext _ (by decide)

end Source

end SimpleGrammar
