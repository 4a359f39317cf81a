/-
Faults of lines.

The faults that are reported stand in line order, one for each line at fault, and each carries the number of its line
unless the line could not be read at all. What is no fault, a silent line among them, still counts as a line.

- `Listed`: what is found at some numbers, in the order of the numbers.
- `listed_faults`: which faults the lines of a file have.
- `loadLines_of_faultAt`: they are what is reported, as soon as there is one.
- `cause_ne_undefinedNonterminal`: none of them is about a reference.
- `isRuleLine_iff`: which lines are read as rules.
-/
import Mathlib.Data.List.TakeWhile
import SimpleGrammar.Proofs.Source.Loading

namespace SimpleGrammar

/-! ## Findings by number -/

section

variable {α β : Type} {P : Nat → β → Prop} {es : List β}

/-- `es` are the findings at their numbers, one for each number that has one, in the order of the numbers -/
def Listed (P : Nat → β → Prop) (es : List β) : Prop :=
  ∃ found : List (Nat × β), found.map Prod.snd = es ∧ found.Pairwise (fun a b => a.1 < b.1) ∧
    ∀ n e, (n, e) ∈ found ↔ P n e

/-- everything in a list has a number -/
theorem exists_mem_zipIdx_iff {a : α} {as : List α} {k : Nat} : (∃ n, (a, n) ∈ as.zipIdx k) ↔ a ∈ as := by
  have hfst : a ∈ (as.zipIdx k).map Prod.fst ↔ a ∈ as := by rw [List.zipIdx_map_fst]
  rw [← hfst, List.mem_map]
  constructor
  · rintro ⟨n, hn⟩
    exact ⟨(a, n), hn, rfl⟩
  · rintro ⟨⟨_, n⟩, hn, rfl⟩
    exact ⟨n, hn⟩

/-- what is found in a numbered list from its start to its end -/
theorem listed_filterMap_zipIdx (f : α → Nat → Option β) (as : List α) (k : Nat) :
    Listed (fun n e => ∃ a, (a, n) ∈ as.zipIdx k ∧ f a n = some e) ((as.zipIdx k).filterMap fun a => f a.1 a.2) := by
  refine ⟨(as.zipIdx k).filterMap fun a => (f a.1 a.2).map (a.2, ·), ?_, ?_, fun n e => ?_⟩
  · rw [List.map_filterMap]
    congr 1
    funext a
    cases f a.1 a.2 <;> rfl
  · -- the numbers of the list increase, and each finding has the number it was found at
    have hnumbers : (as.zipIdx k).Pairwise fun a b => a.2 < b.2 := by
      rw [← List.pairwise_map (f := Prod.snd), List.zipIdx_map_snd]
      exact List.pairwise_lt_range'
    apply hnumbers.filterMap
    intro a b hab x hx y hy
    obtain ⟨_, -, rfl⟩ := Option.map_eq_some_iff.1 hx
    obtain ⟨_, -, rfl⟩ := Option.map_eq_some_iff.1 hy
    exact hab
  · rw [List.mem_filterMap]
    constructor
    · rintro ⟨⟨a, m⟩, ha, h⟩
      obtain ⟨e', he, heq⟩ := Option.map_eq_some_iff.1 h
      cases heq
      exact ⟨a, ha, he⟩
    · rintro ⟨a, ha, he⟩
      exact ⟨(a, n), ha, Option.map_eq_some_iff.2 ⟨e, he, rfl⟩⟩

theorem Listed.mem (h : Listed P es) {e : β} : e ∈ es ↔ ∃ n, P n e := by
  obtain ⟨found, rfl, -, hfound⟩ := h
  simp only [List.mem_map, ← hfound]
  constructor
  · rintro ⟨⟨n, e'⟩, hn, rfl⟩
    exact ⟨n, hn⟩
  · rintro ⟨n, hn⟩
    exact ⟨(n, e), hn, rfl⟩

/-- findings that carry their numbers increase by them -/
theorem Listed.pairwise (h : Listed P es) {key : β → Nat} (hkey : ∀ n e, P n e → key e = n) :
    es.Pairwise fun a b => key a < key b := by
  obtain ⟨found, rfl, hlt, hfound⟩ := h
  rw [List.pairwise_map]
  apply hlt.imp_of_mem
  intro a b ha hb hab
  rw [hkey a.1 a.2 ((hfound _ _).1 ha), hkey b.1 b.2 ((hfound _ _).1 hb)]
  exact hab

theorem Listed.congr {Q : Nat → β → Prop} (h : Listed P es) (hPQ : ∀ n e, P n e ↔ Q n e) : Listed Q es := by
  obtain ⟨found, hes, hlt, hfound⟩ := h
  exact ⟨found, hes, hlt, fun n e => (hfound n e).trans (hPQ n e)⟩

/-- the same findings, each at a number that is greater by `k` -/
theorem Listed.shift (h : Listed P es) (k : Nat) : Listed (fun n e => ∃ m, m + k = n ∧ P m e) es := by
  obtain ⟨found, rfl, hlt, hfound⟩ := h
  refine ⟨found.map fun x => (x.1 + k, x.2), ?_, ?_, fun n e => ?_⟩
  · rw [List.map_map]
    rfl
  · exact List.pairwise_map.2 (hlt.imp fun hab => Nat.add_lt_add_right hab k)
  · rw [List.mem_map]
    constructor
    · rintro ⟨⟨m, e'⟩, hm, heq⟩
      cases heq
      exact ⟨m, rfl, (hfound m _).1 hm⟩
    · rintro ⟨m, rfl, hm⟩
      exact ⟨(m, e), (hfound m e).2 hm, rfl⟩

/-- one more finding before the others -/
theorem Listed.cons {m : Nat} {e : β} (h : Listed P es) (hlt : ∀ n e', P n e' → m < n) :
    Listed (fun n e' => n = m ∧ e' = e ∨ P n e') (e :: es) := by
  obtain ⟨found, rfl, hpairwise, hfound⟩ := h
  refine ⟨(m, e) :: found, rfl, List.pairwise_cons.2 ⟨?_, hpairwise⟩, fun n e' => ?_⟩
  · intro x hx
    exact hlt x.1 x.2 ((hfound x.1 x.2).1 hx)
  · rw [List.mem_cons, hfound, Prod.mk.injEq]

end

namespace Source

/-! ## Causes -/

section

variable {ts : List Token} {e : LoadError} {m : Char}

theorem symbolsOf_cause_ne (h : symbolsOf ts = .error e) : e ≠ .undefinedNonterminal m := by
  fun_induction symbolsOf ts with
  | case1 => cases h
  | case2 rest =>
    cases h
    exact LoadError.noConfusion
  | case3 rest =>
    cases h
    exact LoadError.noConfusion
  | case4 rest ih => exact ih h
  | case5 c rest ih => exact ih (Outcome.map_eq_error_iff.1 h)

theorem alternativeOf_cause_ne (h : alternativeOf ts = .error e) : e ≠ .undefinedNonterminal m := by
  rw [alternativeOf] at h
  split at h
  · cases h
    exact LoadError.noConfusion
  · exact symbolsOf_cause_ne h

theorem alternativesOf_cause_ne (h : alternativesOf ts = .error e) : e ≠ .undefinedNonterminal m := by
  rw [alternativesOf] at h
  split at h
  · cases h
  · obtain ⟨p, -, hp⟩ := Outcome.exists_mem_of_mapM_eq_error h
    exact alternativeOf_cause_ne hp

/-- **Causes of malformed lines.** Reading a line never reports a reference. -/
theorem cause_ne_undefinedNonterminal {line : List Char} (h : RuleLine.read line = .error e) :
    e ≠ .undefinedNonterminal m := by
  rw [RuleLine.read] at h
  unfold RuleLine.ofTokens at h
  split at h
  · cases h
    exact LoadError.noConfusion
  · split at h
    · split at h
      · exact alternativesOf_cause_ne (Outcome.map_eq_error_iff.1 h)
      · cases h
        exact LoadError.noConfusion
    · cases h
      exact LoadError.noConfusion
  · cases h
    exact LoadError.noConfusion

end

/-! ## Faults -/

/-- **Rule lines.** The first character that is not white space is there, and it is no semicolon. -/
theorem isRuleLine_iff {line : List Char} :
    isRuleLine line = true ↔ ∃ c, line.find? (!Text.isBlank ·) = some c ∧ c ≠ ';' := by
  have hhead : line.find? (!Text.isBlank ·) = (Text.dropBlanks line).head? :=
    List.find?_not_eq_head?_dropWhile Text.isBlank line
  rw [hhead, isRuleLine]
  split
  · next h => simp [h]
  · next c rest h => simp [h]

/-- what is wrong with the line `n` of a file: it is no text, or a rule line that cannot be read -/
def FaultAt (file : String) (line : SourceLine) (n : Nat) (e : Located LoadError) : Prop :=
  (∃ fault, line = .error fault ∧ e = ⟨⟨file, 0⟩, .file fault⟩) ∨
    ∃ text cause, line = .ok text ∧ isRuleLine text = true ∧ RuleLine.read text = .error cause ∧ e = ⟨⟨file, n⟩, cause⟩

theorem readLine_eq_some_error_iff {file : String} {line : SourceLine} {n : Nat} {e : Located LoadError} :
    readLine file line n = some (.error e) ↔ FaultAt file line n e := by
  cases line with
  | error fault =>
    simp [readLine, FaultAt, FileFault.locate, Location.whole, eq_comm (a := e)]
  | ok text =>
    rw [readLine]
    split
    · next hrule =>
      split
      · next cause hcause => simp [FaultAt, hrule, hcause, eq_comm (a := e)]
      · next rule hread => simp [FaultAt, hread]
    · next hrule => simp [FaultAt, hrule]

/-- the fault in what a line contributes -/
def fault? : Except (Located LoadError) Definition → Option (Located LoadError)
  | .error e => some e
  | .ok _ => none

theorem faults_eq_filterMap (found : List (Except (Located LoadError) Definition)) :
    faults found = found.filterMap fault? := rfl

/-- **Faults of lines.** The faults of a file are those of its lines, in line order, at most one for each line. -/
theorem listed_faults (file : String) (lines : List SourceLine) :
    Listed (fun n e => ∃ line, (line, n) ∈ lines.zipIdx 1 ∧ FaultAt file line n e) (faults (readLines file lines)) := by
  have hfaults := listed_filterMap_zipIdx (fun line n => (readLine file line n).bind fault?) lines 1
  rw [faults_eq_filterMap, readLines, List.filterMap_filterMap]
  refine hfaults.congr fun n e => exists_congr fun line => and_congr_right fun _ => ?_
  rw [← readLine_eq_some_error_iff, Option.bind_eq_some_iff]
  constructor
  · rintro ⟨found, hfound, he⟩
    cases found with
    | error e' =>
      cases he
      exact hfound
    | ok rule => cases he
  · intro h
    exact ⟨_, h, rfl⟩

/-- the same for lines that are given as something else -/
theorem listed_faults_map {α : Type} (file : String) (f : α → SourceLine) (as : List α) :
    Listed (fun n e => ∃ a, (a, n) ∈ as.zipIdx 1 ∧ FaultAt file (f a) n e) (faults (readLines file (as.map f))) := by
  refine (listed_faults file (as.map f)).congr fun n e => ?_
  rw [List.zipIdx_map]
  constructor
  · rintro ⟨line, hline, he⟩
    obtain ⟨⟨a, m⟩, ha, heq⟩ := List.mem_map.1 hline
    cases heq
    exact ⟨a, ha, he⟩
  · rintro ⟨a, ha, he⟩
    exact ⟨f a, List.mem_map.2 ⟨(a, n), ha, rfl⟩, he⟩

theorem loadLines_of_faults {file : String} {lines : List SourceLine} (h : faults (readLines file lines) ≠ []) :
    loadLines file lines = .error (faults (readLines file lines)) := by
  rw [loadLines]
  exact if_pos h

/-- **Files with faults.** A line at fault makes the file fail with the faults of its lines, and with nothing else. -/
theorem loadLines_of_faultAt {α : Type} {file : String} {f : α → SourceLine} {as : List α} {a : α} {n : Nat}
    {e : Located LoadError} (ha : (a, n) ∈ as.zipIdx 1) (he : FaultAt file (f a) n e) :
    ∃ es, loadLines file (as.map f) = .error es ∧
      Listed (fun n e => ∃ a, (a, n) ∈ as.zipIdx 1 ∧ FaultAt file (f a) n e) es ∧
      ∀ e ∈ es, ∀ m, e.cause ≠ .undefinedNonterminal m := by
  have hlisted := listed_faults_map file f as
  have hne : faults (readLines file (as.map f)) ≠ [] := List.ne_nil_of_mem (hlisted.mem.2 ⟨n, a, ha, he⟩)
  refine ⟨_, loadLines_of_faults hne, hlisted, ?_⟩
  intro e he m
  obtain ⟨_, _, _, ⟨_, _, rfl⟩ | ⟨_, _, _, _, hread, rfl⟩⟩ := hlisted.mem.1 he
  · exact LoadError.noConfusion
  · exact cause_ne_undefinedNonterminal hread

/-- what can be reported of a file: that a line is no text, what is wrong with a rule line, or a reference -/
theorem cause_of_loadLines {file : String} {lines : List SourceLine} {es : List (Located LoadError)}
    {e : Located LoadError} (h : loadLines file lines = .error es) (he : e ∈ es) :
    (∃ fault, e.cause = .file fault) ∨ (∃ text, isRuleLine text = true ∧ RuleLine.read text = .error e.cause) ∨
      ∃ n, e.cause = .undefinedNonterminal n := by
  simp only [loadLines] at h
  split at h
  · cases h
    obtain ⟨_, _, _, ⟨fault, -, rfl⟩ | ⟨text, cause, -, hrule, hread, rfl⟩⟩ := (listed_faults file lines).mem.1 he
    · exact .inl ⟨fault, rfl⟩
    · exact .inr (.inl ⟨text, hrule, hread⟩)
  · split at h
    · cases h
      obtain ⟨m, -, rfl⟩ := List.mem_map.1 he
      exact .inr (.inr ⟨m.2, rfl⟩)
    · cases h

end Source

end SimpleGrammar
