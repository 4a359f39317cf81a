/-
Rejections are on-line and exact.

A run that reads the first part of an input has one stack before it, whatever comes next. So what the recognizer says of
an input follows from what it says of its beginnings: a rejection at a position is the verdict on the characters before
the position, and what is wrong with the one character there.

- `derive_eq_ok_iff_expects`, `derive_exhausted_iff_expects`: the two verdicts on an input that is read to its end.
- `derive_error_at_iff`: a rejection at a position by the stack before it.
- `derive_rejects_iff`: the three rejections that name a position, and what they have in common.
-/
import Mathlib
import SimpleGrammar.Proofs.Recognition.Run

namespace SimpleGrammar

variable {g : Grammar} {s : Char} {u w : List Char} {r : Rejection} {p : Nat}

/-- after `u` the run from `s` still expects `rest` -/
def Expects (g : Grammar) (s : Char) (u : List Char) (rest : List Symbol) : Prop :=
  ∃ d, Reads g [.ofChar s] 0 u d rest

/-- a run is rejected inside the input, or reads it to its end -/
theorem derive_rejected_or_expects (g : Grammar) (w : List Char) (s : Char) :
    (∃ r q, r.position? = some q ∧ q < w.length ∧ ∀ v, g.derive (w ++ v) s = .error r) ∨
      ∃ rest, Expects g s w rest := by
  rcases reject_or_reads_all g [.ofChar s] w 0 with ⟨r, q, hq, -, hlt, hrun⟩ | ⟨d, rest, hrun⟩
  · exact .inl ⟨r, q, hq, by omega, hrun⟩
  · exact .inr ⟨rest, d, hrun⟩

/-- an input that is read to its end is a sentence when nothing is expected any more -/
theorem derive_of_expects {rest : List Symbol} (h : Expects g s w rest) :
    (∃ d, g.derive w s = .ok d) ∧ rest = [] ∨
      ∃ x, g.derive w s = .error (.inputExhausted x) ∧ rest.head? = some x := by
  obtain ⟨d, h⟩ := h
  have hrun := h []
  rw [List.append_nil] at hrun
  cases rest with
  | nil =>
    rw [runFrom_nil_nil] at hrun
    exact .inl ⟨⟨_, hrun⟩, rfl⟩
  | cons x below =>
    rw [runFrom_cons_nil] at hrun
    exact .inr ⟨x, hrun, rfl⟩

theorem derive_eq_ok_iff_expects : (∃ d, g.derive w s = .ok d) ↔ Expects g s w [] := by
  constructor
  · rintro ⟨d, hd⟩
    rcases derive_rejected_or_expects g w s with ⟨r, q, -, -, hrun⟩ | ⟨rest, hrest⟩
    · have := hrun []
      rw [List.append_nil, hd] at this
      cases this
    · rcases derive_of_expects hrest with ⟨-, rfl⟩ | ⟨x, hx, -⟩
      · exact hrest
      · rw [hd] at hx
        cases hx
  · intro h
    rcases derive_of_expects h with ⟨hd, -⟩ | ⟨x, -, hx⟩
    · exact hd
    · cases hx

theorem derive_exhausted_iff_expects {x : Symbol} :
    g.derive w s = .error (.inputExhausted x) ↔ ∃ rest, Expects g s w rest ∧ rest.head? = some x := by
  constructor
  · intro hx
    rcases derive_rejected_or_expects g w s with ⟨r, q, hq, -, hrun⟩ | ⟨rest, hrest⟩
    · have := hrun []
      rw [List.append_nil, hx] at this
      cases this
      cases hq
    · rcases derive_of_expects hrest with ⟨⟨d, hd⟩, -⟩ | ⟨y, hy, hrest'⟩
      · rw [hx] at hd
        cases hd
      · rw [hx] at hy
        cases hy
        exact ⟨rest, hrest, hrest'⟩
  · rintro ⟨rest, hrest, hx⟩
    rcases derive_of_expects hrest with ⟨-, rfl⟩ | ⟨y, hy, hrest'⟩
    · cases hx
    · rw [hx] at hrest'
      cases hrest'
      exact hy

/-- the run on an input from the stack expected after its first part -/
theorem derive_append_error_iff {rest : List Symbol} {v : List Char} (h : Expects g s u rest) :
    g.derive (u ++ v) s = .error r ↔ runFrom g ⟨rest, v, u.length⟩ = .error r := by
  obtain ⟨d, h⟩ := h
  have hrun := h v
  rw [Nat.zero_add] at hrun
  rw [Grammar.derive, Config.initial, hrun]
  cases runFrom g ⟨rest, v, u.length⟩ <;> simp [Except.map]

/-- **Rejections by position.** An input is rejected at a position when the characters before it can be read and the
first move after them is the rejection. -/
theorem derive_error_at_iff (hr : r.position? = some p) :
    g.derive w s = .error r ↔ ∃ c rest, w[p]? = some c ∧ Expects g s (w.take p) rest ∧
      Config.move g ⟨rest, c :: w.drop (p + 1), p⟩ = .reject r := by
  -- the input is what is before the position, the character there and what is after it
  have hsplit : ∀ c, w[p]? = some c → w = w.take p ++ c :: w.drop (p + 1) ∧ (w.take p).length = p := by
    intro c hc
    obtain ⟨hlt, rfl⟩ := List.getElem?_eq_some_iff.1 hc
    exact ⟨by rw [← List.drop_eq_getElem_cons hlt, List.take_append_drop], List.length_take_of_le (Nat.le_of_lt hlt)⟩
  constructor
  · intro h
    have hlt : p < w.length := by
      have := position?_bounds h hr
      omega
    have hc : w[p]? = some w[p] := List.getElem?_eq_getElem hlt
    obtain ⟨hw, hlen⟩ := hsplit _ hc
    rcases derive_rejected_or_expects g (w.take p) s with ⟨r', q, hq, hqp, hrun⟩ | ⟨rest, hrest⟩
    · -- a rejection before the position would be the verdict on the whole input
      have h' := hrun (w.drop p)
      rw [List.take_append_drop, h] at h'
      cases h'
      rw [hr] at hq
      cases hq
      omega
    · rw [hw, derive_append_error_iff hrest, hlen, runFrom_error_at_iff hr] at h
      exact ⟨_, rest, hc, hrest, h⟩
  · rintro ⟨c, rest, hc, hrest, hmove⟩
    obtain ⟨hw, hlen⟩ := hsplit c hc
    rw [hw, derive_append_error_iff hrest, hlen]
    exact runFrom_of_reject hmove

/-- **Rejections are on-line.** Input is left over at a position exactly when what is before it is a sentence. A
nonterminal has no rule for a character exactly when what is before the character ends with the nonterminal expected and
no alternative of it begins with the character. A character is a mismatch exactly when what is before it ends with
another terminal expected. What is appended changes none of these reports, and makes no sentence a longer one. -/
theorem derive_rejects_iff (g : Grammar) (w : List Char) (s : Char) :
    (∀ p, g.derive w s = .error (.trailingInput p) ↔ p < w.length ∧ ∃ d, g.derive (w.take p) s = .ok d) ∧
    (∀ n c p, g.derive w s = .error (.noApplicableRule n c p) ↔
      w[p]? = some c ∧ g.derive (w.take p) s = .error (.inputExhausted (.nonterminal n)) ∧
        ∀ alts, g.alternatives? n = some alts → ∀ r ∈ alts, r.head? ≠ some (.terminal c)) ∧
    (∀ e f p, g.derive w s = .error (.terminalMismatch e f p) ↔
      w[p]? = some f ∧ f ≠ e ∧ g.derive (w.take p) s = .error (.inputExhausted (.terminal e))) ∧
    (∀ r v, g.derive w s = .error r → (∀ x, r ≠ .inputExhausted x) → g.derive (w ++ v) s = .error r) ∧
    ∀ v d e, g.derive w s = .ok d → g.derive (w ++ v) s = .ok e → v = [] := by
  refine ⟨fun p => ?_, fun n c p => ?_, fun e f p => ?_, fun r v hr hx => ?_, fun v d e hd he => ?_⟩
  · rw [derive_error_at_iff rfl, derive_eq_ok_iff_expects]
    simp only [move_trailing_iff, true_and]
    constructor
    · rintro ⟨c, rest, hc, hrest, rfl⟩
      exact ⟨(List.getElem?_eq_some_iff.1 hc).1, hrest⟩
    · rintro ⟨hlt, hrest⟩
      exact ⟨w[p], [], List.getElem?_eq_getElem hlt, hrest, rfl⟩
  · rw [derive_error_at_iff rfl, derive_exhausted_iff_expects, ← select_getD_eq_none_iff]
    simp only [move_noApplicableRule_iff, true_and]
    constructor
    · rintro ⟨c, rest, hc, hrest, rfl, hn, hnone⟩
      exact ⟨hc, ⟨rest, hrest, hn⟩, hnone⟩
    · rintro ⟨hc, ⟨rest, hrest, hn⟩, hnone⟩
      exact ⟨c, rest, hc, hrest, rfl, hn, hnone⟩
  · rw [derive_error_at_iff rfl, derive_exhausted_iff_expects]
    simp only [move_terminalMismatch_iff, true_and]
    constructor
    · rintro ⟨c, rest, hc, hrest, rfl, hne, he⟩
      exact ⟨hc, hne, rest, hrest, he⟩
    · rintro ⟨hc, hne, rest, hrest, he⟩
      exact ⟨f, rest, hc, hrest, rfl, hne, he⟩
  · rcases derive_rejected_or_expects g w s with ⟨r', q, -, -, hrun⟩ | ⟨rest, hrest⟩
    · have h := hrun []
      rw [List.append_nil, hr] at h
      cases h
      exact hrun v
    · rcases derive_of_expects hrest with ⟨⟨d, hd⟩, -⟩ | ⟨x, hx', -⟩
      · rw [hr] at hd
        cases hd
      · rw [hr] at hx'
        cases hx'
        exact absurd rfl (hx x)
  · cases v with
    | nil => rfl
    | cons c v =>
      have hleft : g.derive (w ++ c :: v) s = .error (.trailingInput w.length) :=
        (derive_append_error_iff (derive_eq_ok_iff_expects.1 ⟨d, hd⟩)).2 (runFrom_nil_cons g _ c v)
      rw [he] at hleft
      cases hleft

/-- `S -> abS | c`: after `a` a second `a` stands in the place of `b`, whatever follows it -/
theorem derive_rejects_terminalMismatch :
    ∃ g : Grammar, g.derive ['a'] 'S' = .error (.inputExhausted (.terminal 'b')) ∧
      g.derive ['a', 'a', 'c'] 'S' = .error (.terminalMismatch 'b' 'a' 1) := by
  refine ⟨.ofRules [('S', ["abS", "c"])], by cbv, ?_⟩
  have hmismatch := (derive_rejects_iff (.ofRules [('S', ["abS", "c"])]) ['a', 'a', 'c'] 'S').2.2.1 'b' 'a' 1
  exact hmismatch.2 ⟨rfl, by decide, by cbv⟩

end SimpleGrammar
