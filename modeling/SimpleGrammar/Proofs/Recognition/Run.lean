/-
Runs of the recognizer, character by character.

A run reads a character in at most two moves: an expansion puts the character on top, the next move takes it off. So a
run is given by what it does with one character after another (`runFrom_terminal`, `runFrom_nonterminal`), and what it
does with the first part of an input does not depend on the rest.

- `select_eq_some_iff`, `select_eq_none_iff`: which alternative is selected, and when there is none.
- `reject_or_reads_all`: after the first part of an input the run has either been rejected inside it, whatever
  follows, or it stands before the rest with a stack and the steps made so far.
- `runFrom_error_at_iff`: a rejection at the position where a run begins is its first move.
-/
import SimpleGrammar.Recognition

namespace SimpleGrammar

/-! ## Selection -/

/-- the selected alternative begins with the character, and no alternative before it does -/
theorem select_eq_some_iff {alts : Alternatives} {c : Char} {r : Rhs} {i : Nat} :
    select alts c = some (r, i) ↔ alts[i]? = some r ∧ r.head? = some (.terminal c) ∧
      ∀ j < i, ∀ q, alts[j]? = some q → q.head? ≠ some (.terminal c) := by
  simp only [select, List.find?_eq_some_iff_getElem, List.getElem_zipIdx, List.length_zipIdx]
  constructor
  · rintro ⟨hr, j, hj, heq, hbefore⟩
    simp only [Prod.mk.injEq, Nat.zero_add] at heq
    obtain ⟨rfl, rfl⟩ := heq
    refine ⟨List.getElem?_eq_getElem hj, by simpa using hr, fun k hk q hq => ?_⟩
    obtain ⟨hk', rfl⟩ := List.getElem?_eq_some_iff.1 hq
    simpa using hbefore k hk
  · rintro ⟨hr, hhead, hbefore⟩
    obtain ⟨hi, rfl⟩ := List.getElem?_eq_some_iff.1 hr
    refine ⟨by simpa using hhead, i, hi, by simp, fun j hj => ?_⟩
    simpa using hbefore j hj _ (List.getElem?_eq_getElem (Nat.lt_trans hj hi))

theorem select_eq_none_iff {alts : Alternatives} {c : Char} :
    select alts c = none ↔ ∀ r ∈ alts, r.head? ≠ some (.terminal c) := by
  simp only [select, List.find?_eq_none, decide_eq_true_eq]
  constructor
  · intro h r hr
    obtain ⟨i, hi⟩ := List.mem_iff_getElem?.1 hr
    exact h (r, i) (List.mem_zipIdx_iff_getElem?.2 hi)
  · intro h a ha
    exact h a.1 (List.mem_of_getElem? (List.mem_zipIdx_iff_getElem?.1 ha))

/-- an undefined nonterminal has no alternative to select, just as one without alternatives -/
theorem select_getD_eq_none_iff {g : Grammar} {n c : Char} :
    select ((g.alternatives? n).getD []) c = none ↔
      ∀ alts, g.alternatives? n = some alts → ∀ r ∈ alts, r.head? ≠ some (.terminal c) := by
  cases h : g.alternatives? n with
  | none => simp [select]
  | some alts => simp [select_eq_none_iff]

/-! ## One move -/

section

variable {g : Grammar} {k k' : Config} {r : Rejection} {s : Step} {q : Rhs}

theorem runFrom_of_accept (h : k.move g = .accept) : runFrom g k = .ok [] := by
  rw [runFrom]
  split <;> simp_all

theorem runFrom_of_reject (h : k.move g = .reject r) : runFrom g k = .error r := by
  rw [runFrom]
  split <;> simp_all

theorem runFrom_of_advance (h : k.move g = .advance k') : runFrom g k = runFrom g k' := by
  rw [runFrom]
  split <;> simp_all

theorem runFrom_of_expand (h : k.move g = .expand s q k') : runFrom g k = (runFrom g k').map (s :: ·) := by
  rw [runFrom]
  split <;> simp_all

end

/-! ## One character -/

section

variable (g : Grammar) (p : Nat)

@[simp] theorem runFrom_nil_nil : runFrom g ⟨[], [], p⟩ = .ok [] := runFrom_of_accept rfl

@[simp] theorem runFrom_nil_cons (c : Char) (w : List Char) : runFrom g ⟨[], c :: w, p⟩ = .error (.trailingInput p) :=
  runFrom_of_reject rfl

@[simp] theorem runFrom_cons_nil (top : Symbol) (below : List Symbol) :
    runFrom g ⟨top :: below, [], p⟩ = .error (.inputExhausted top) := by
  cases top <;> exact runFrom_of_reject rfl

/-- a terminal on top is the next character, or the run ends -/
theorem runFrom_terminal (t : Char) (below : List Symbol) (c : Char) (w : List Char) :
    runFrom g ⟨.terminal t :: below, c :: w, p⟩ =
      if t = c then runFrom g ⟨below, w, p + 1⟩ else .error (.terminalMismatch t c p) := by
  split
  · next h => exact runFrom_of_advance (by simp [Config.move, h])
  · next h => exact runFrom_of_reject (by simp [Config.move, h])

/-- a nonterminal on top is replaced by the alternative selected, whose first symbol is read at once -/
theorem runFrom_nonterminal (n : Char) (below : List Symbol) (c : Char) (w : List Char) :
    runFrom g ⟨.nonterminal n :: below, c :: w, p⟩ =
      match select ((g.alternatives? n).getD []) c with
      | none => .error (.noApplicableRule n c p)
      | some (r, i) => (runFrom g ⟨r.tail ++ below, w, p + 1⟩).map (⟨n, i⟩ :: ·) := by
  split
  · next h => exact runFrom_of_reject (by simp [Config.move, h])
  · next r i h =>
    have hexpand : Config.move g ⟨.nonterminal n :: below, c :: w, p⟩ =
        .expand ⟨n, i⟩ r ⟨r ++ below, c :: w, p⟩ := by simp [Config.move, h]
    obtain ⟨tail, rfl⟩ := List.head?_eq_some_iff.1 (head?_of_select h)
    rw [runFrom_of_expand hexpand, List.cons_append, runFrom_terminal, if_pos rfl, List.tail_cons]

end

/-! ## Where a run is rejected -/

/-- the position that a rejection names; none when the input has ended -/
def Rejection.position? : Rejection → Option Nat
  | inputExhausted _ => none
  | noApplicableRule _ _ p => some p
  | terminalMismatch _ _ p => some p
  | trailingInput p => some p

/-- the first move names the position where the run begins, unless the input has ended -/
theorem position?_of_reject {g : Grammar} {stack : List Symbol} {c : Char} {w : List Char} {p : Nat} {r : Rejection}
    (h : Config.move g ⟨stack, c :: w, p⟩ = .reject r) : r.position? = some p := by
  rcases stack with _ | ⟨_ | n, below⟩ <;> simp only [Config.move] at h
  · cases h
    rfl
  · split at h <;> cases h
    rfl
  · split at h <;> cases h
    rfl

/-- what the first move has against a stack that is used up -/
theorem move_trailing_iff {g : Grammar} {stack : List Symbol} {c : Char} {w : List Char} {p q : Nat} :
    Config.move g ⟨stack, c :: w, p⟩ = .reject (.trailingInput q) ↔ q = p ∧ stack = [] := by
  rcases stack with _ | ⟨_ | n, below⟩ <;> simp only [Config.move]
  · simp [eq_comm]
  · split <;> simp
  · split <;> simp

/-- what it has against a nonterminal -/
theorem move_noApplicableRule_iff {g : Grammar} {stack : List Symbol} {n c l : Char} {w : List Char} {p q : Nat} :
    Config.move g ⟨stack, c :: w, p⟩ = .reject (.noApplicableRule n l q) ↔
      q = p ∧ l = c ∧ stack.head? = some (.nonterminal n) ∧ select ((g.alternatives? n).getD []) c = none := by
  rcases stack with _ | ⟨_ | m, below⟩ <;> simp only [Config.move]
  · simp
  · split <;> simp
  · split <;> grind

/-- what it has against a terminal -/
theorem move_terminalMismatch_iff {g : Grammar} {stack : List Symbol} {e c f : Char} {w : List Char} {p q : Nat} :
    Config.move g ⟨stack, c :: w, p⟩ = .reject (.terminalMismatch e f q) ↔
      q = p ∧ f = c ∧ c ≠ e ∧ stack.head? = some (.terminal e) := by
  rcases stack with _ | ⟨_ | m, below⟩ <;> simp only [Config.move]
  · simp
  · split <;> grind
  · split <;> simp

/-! ## Reading the first part of an input -/

/-- before any `v`, the run on `u` takes the steps `d` and goes on with `rest` instead of `stack` -/
def Reads (g : Grammar) (stack : List Symbol) (p : Nat) (u : List Char) (d : Derivation) (rest : List Symbol) : Prop :=
  ∀ v, runFrom g ⟨stack, u ++ v, p⟩ = (runFrom g ⟨rest, v, p + u.length⟩).map (d ++ ·)

section

variable {g : Grammar} {stack rest : List Symbol} {u v w : List Char} {d e : Derivation} {p q : Nat} {r : Rejection}

theorem reads_nil : Reads g stack p [] [] stack := by
  intro v
  cases h : runFrom g ⟨stack, v, p⟩ <;> simp [h, Except.map]

theorem Reads.append {last : List Symbol} (hu : Reads g stack p u d rest) (hv : Reads g rest (p + u.length) v e last) :
    Reads g stack p (u ++ v) (d ++ e) last := by
  intro w
  rw [List.append_assoc, hu, hv, List.length_append, Nat.add_assoc]
  cases runFrom g ⟨last, w, p + (u.length + v.length)⟩ <;> simp [Except.map]

/-- on a character the run is rejected by its first move, or it reads the character -/
theorem reject_or_reads (g : Grammar) (stack : List Symbol) (c : Char) (p : Nat) :
    (∃ r, ∀ w, Config.move g ⟨stack, c :: w, p⟩ = .reject r) ∨ ∃ d rest, Reads g stack p [c] d rest := by
  rcases stack with _ | ⟨t | n, below⟩
  · exact .inl ⟨.trailingInput p, fun w => rfl⟩
  · by_cases h : t = c
    · refine .inr ⟨[], below, fun w => ?_⟩
      rw [List.singleton_append, runFrom_terminal, if_pos h]
      exact reads_nil w
    · exact .inl ⟨.terminalMismatch t c p, fun w => by simp [Config.move, h]⟩
  · cases h : select ((g.alternatives? n).getD []) c with
    | none => exact .inl ⟨.noApplicableRule n c p, fun w => by simp [Config.move, h]⟩
    | some a =>
      refine .inr ⟨[⟨n, a.2⟩], a.1.tail ++ below, fun w => ?_⟩
      simp only [List.singleton_append, runFrom_nonterminal, h, List.length_singleton]

/-- **Runs split.** A run on the first part `u` of an input is rejected inside `u`, whatever follows, or it reads `u`
and goes on with a stack that does not depend on what follows. -/
theorem reject_or_reads_all (g : Grammar) (stack : List Symbol) (u : List Char) (p : Nat) :
    (∃ r q, r.position? = some q ∧ p ≤ q ∧ q < p + u.length ∧ ∀ v, runFrom g ⟨stack, u ++ v, p⟩ = .error r) ∨
      ∃ d rest, Reads g stack p u d rest := by
  induction u generalizing stack p with
  | nil => exact .inr ⟨[], stack, reads_nil⟩
  | cons c u ih =>
    rcases reject_or_reads g stack c p with ⟨r, hmove⟩ | ⟨d, rest, hc⟩
    · exact .inl ⟨r, p, position?_of_reject (hmove u), Nat.le_refl p, by simp, fun v => runFrom_of_reject (hmove _)⟩
    · rcases ih rest (p + 1) with ⟨r, q, hq, hlo, hhi, hin⟩ | ⟨e, last, hin⟩
      · refine .inl ⟨r, q, hq, by omega, by simp only [List.length_cons]; omega, fun v => ?_⟩
        have h := hc (u ++ v)
        rw [List.length_singleton, hin v] at h
        exact h
      · exact .inr ⟨d ++ e, last, hc.append hin⟩

/-- a rejection names a position of the input -/
theorem position?_bounds (h : runFrom g ⟨stack, u, p⟩ = .error r) (hq : r.position? = some q) :
    p ≤ q ∧ q < p + u.length := by
  rcases reject_or_reads_all g stack u p with ⟨r', q', hq', hlo, hhi, hin⟩ | ⟨d, rest, hin⟩
  · have h' := hin []
    rw [List.append_nil, h] at h'
    cases h'
    rw [hq] at hq'
    cases hq'
    exact ⟨hlo, hhi⟩
  · -- at the end of the input only the missing symbols are reported, which names no position
    have h' := hin []
    rw [List.append_nil, h] at h'
    cases rest with
    | nil => simp [Except.map] at h'
    | cons top below =>
      simp only [runFrom_cons_nil, Except.map, Except.error.injEq] at h'
      rw [h'] at hq
      cases hq

/-- a rejection at the position where a run begins is its first move -/
theorem runFrom_error_at_iff {c : Char} (hr : r.position? = some p) :
    runFrom g ⟨stack, c :: w, p⟩ = .error r ↔ Config.move g ⟨stack, c :: w, p⟩ = .reject r := by
  refine ⟨fun h => ?_, runFrom_of_reject⟩
  rcases reject_or_reads g stack c p with ⟨r', hmove⟩ | ⟨d, rest, hc⟩
  · have h' := runFrom_of_reject (hmove w)
    rw [h] at h'
    cases h'
    exact hmove w
  · -- the run has gone on to the next position, and every rejection from there is later
    have h' := hc w
    rw [List.singleton_append, h] at h'
    cases hrun : runFrom g ⟨rest, w, p + 1⟩ with
    | ok e => simp [hrun, Except.map] at h'
    | error r' =>
      simp only [List.length_singleton, hrun, Except.map, Except.error.injEq] at h'
      have := (position?_bounds hrun (h' ▸ hr)).1
      omega

end

end SimpleGrammar
