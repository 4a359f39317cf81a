/-
Derivations: what the rules of a grammar generate.

A rule system says which right-hand sides a step may put in the place of its nonterminal. A grammar gives two that
matter here: all its rules, and the leading ones, which begin with a terminal that no earlier alternative of the same
nonterminal begins with. Generation is said in three ways:
- `Derives`: any nonterminal of the form is replaced, in any order;
- `Leftmost`: always the first nonterminal is replaced, and the steps are kept;
- `Yields`: every symbol has a word below it, and the words stand side by side.

- `exists_leftmost_iff_yields`, `derives_iff_yields`: for words the three say the same.
- `leftmost_terminal`, `leftmost_nonterminal`: what a leftmost derivation of a word does with the first symbol.
- `replay_eq_some_iff`: carrying recorded steps out on a form is the same as deriving leftmost by all rules.
-/
import Mathlib.Logic.Relation
import SimpleGrammar.Recognition

namespace SimpleGrammar

/-- which right-hand sides the steps of a derivation may use -/
abbrev Rules := Step → Rhs → Prop

/-- the form that is a word -/
def word (w : List Char) : List Symbol := w.map .terminal

@[simp] theorem word_nil : word [] = [] := rfl

@[simp] theorem word_cons (c : Char) (w : List Char) : word (c :: w) = .terminal c :: word w := rfl

@[simp] theorem word_append (u v : List Char) : word (u ++ v) = word u ++ word v := List.map_append

theorem word_eq_cons_iff {w : List Char} {s : Symbol} {a : List Symbol} :
    word w = s :: a ↔ ∃ c v, w = c :: v ∧ s = .terminal c ∧ a = word v := by
  cases w with
  | nil => simp
  | cons c v =>
    simp only [word_cons, List.cons.injEq]
    constructor
    · rintro ⟨rfl, rfl⟩
      exact ⟨c, v, ⟨rfl, rfl⟩, rfl, rfl⟩
    · rintro ⟨_, _, ⟨rfl, rfl⟩, rfl, rfl⟩
      exact ⟨rfl, rfl⟩

/-! ## The rules of a grammar -/

namespace Grammar

/-- the alternative that a step names -/
def alternative? (g : Grammar) (s : Step) : Option Rhs :=
  (g.alternatives? s.nonterminal).bind fun alts => alts[s.alternative]?

/-- all rules -/
def Rule (g : Grammar) : Rules := fun s r => g.alternative? s = some r

instance (g : Grammar) (s : Step) (r : Rhs) : Decidable (g.Rule s r) := by
  unfold Rule; infer_instance

/-- the rules that begin with a terminal which no earlier alternative of the nonterminal begins with -/
def LeadingRule (g : Grammar) : Rules := fun s r =>
  g.Rule s r ∧ ∃ c, r.head? = some (.terminal c) ∧
    ∀ i < s.alternative, ∀ q, g.Rule ⟨s.nonterminal, i⟩ q → q.head? ≠ some (.terminal c)

theorem rule_iff {g : Grammar} {s : Step} {r : Rhs} :
    g.Rule s r ↔ ∃ alts, g.alternatives? s.nonterminal = some alts ∧ alts[s.alternative]? = some r :=
  Option.bind_eq_some_iff

end Grammar

/-! ## Derivations -/

section

variable (R : Rules)

/-- some nonterminal of the form is replaced -/
def Rewrites (a b : List Symbol) : Prop :=
  ∃ s r u v, R s r ∧ a = u ++ .nonterminal s.nonterminal :: v ∧ b = u ++ r ++ v

/-- nonterminals are replaced one after the other, each time any of them -/
abbrev Derives : List Symbol → List Symbol → Prop := Relation.ReflTransGen (Rewrites R)

/-- the first nonterminal of the form is replaced -/
def LeftmostStep (s : Step) (a b : List Symbol) : Prop :=
  ∃ r u v, R s r ∧ a = word u ++ .nonterminal s.nonterminal :: v ∧ b = word u ++ r ++ v

/-- the first nonterminal is replaced again and again, by the steps given -/
inductive Leftmost : List Symbol → Derivation → List Symbol → Prop
  | refl (a : List Symbol) : Leftmost a [] a
  | step {s : Step} {a b c : List Symbol} {d : Derivation} (h : LeftmostStep R s a b) (t : Leftmost b d c) :
    Leftmost a (s :: d) c

/-- the word is made of the words below the symbols of the form -/
inductive Yields : List Symbol → List Char → Prop
  | nil : Yields [] []
  | terminal {c : Char} {a : List Symbol} {w : List Char} (h : Yields a w) : Yields (.terminal c :: a) (c :: w)
  | nonterminal {s : Step} {r : Rhs} {a : List Symbol} {u v : List Char} (hr : R s r) (hu : Yields r u)
    (hv : Yields a v) : Yields (.nonterminal s.nonterminal :: a) (u ++ v)

end

variable {R Q : Rules}

/-! ## Leftmost steps -/

/-- a terminal in front takes no part in a leftmost step -/
theorem leftmostStep_terminal {s : Step} {c : Char} {a b : List Symbol} :
    LeftmostStep R s (.terminal c :: a) b ↔ ∃ b', b = .terminal c :: b' ∧ LeftmostStep R s a b' := by
  constructor
  · rintro ⟨r, u, v, hr, ha, rfl⟩
    cases u with
    | nil => simp at ha
    | cons t u =>
      simp only [word_cons, List.cons_append, List.cons.injEq, Symbol.terminal.injEq] at ha
      obtain ⟨rfl, rfl⟩ := ha
      exact ⟨_, rfl, r, u, v, hr, rfl, rfl⟩
  · rintro ⟨_, rfl, r, u, v, hr, rfl, rfl⟩
    exact ⟨r, c :: u, v, hr, rfl, rfl⟩

/-- a nonterminal in front is the one that is replaced -/
theorem leftmostStep_nonterminal {s : Step} {n : Char} {a b : List Symbol} :
    LeftmostStep R s (.nonterminal n :: a) b ↔ s.nonterminal = n ∧ ∃ r, R s r ∧ b = r ++ a := by
  constructor
  · rintro ⟨r, u, v, hr, ha, rfl⟩
    cases u with
    | nil =>
      simp only [word_nil, List.nil_append, List.cons.injEq, Symbol.nonterminal.injEq] at ha
      obtain ⟨rfl, rfl⟩ := ha
      exact ⟨rfl, r, hr, rfl⟩
    | cons t u => simp at ha
  · rintro ⟨rfl, r, hr, rfl⟩
    exact ⟨r, [], a, hr, rfl, rfl⟩

theorem not_leftmostStep_nil {s : Step} {b : List Symbol} : ¬ LeftmostStep R s [] b := by
  rintro ⟨r, u, v, -, ha, -⟩
  simp at ha

theorem LeftmostStep.append {s : Step} {a b : List Symbol} (h : LeftmostStep R s a b) (c : List Symbol) :
    LeftmostStep R s (a ++ c) (b ++ c) := by
  obtain ⟨r, u, v, hr, rfl, rfl⟩ := h
  exact ⟨r, u, v ++ c, hr, by simp, by simp⟩

theorem LeftmostStep.rewrites {s : Step} {a b : List Symbol} (h : LeftmostStep R s a b) : Rewrites R a b := by
  obtain ⟨r, u, v, hr, ha, hb⟩ := h
  exact ⟨s, r, word u, v, hr, ha, hb⟩

theorem LeftmostStep.mono (hRQ : ∀ s r, R s r → Q s r) {s : Step} {a b : List Symbol} (h : LeftmostStep R s a b) :
    LeftmostStep Q s a b := by
  obtain ⟨r, u, v, hr, ha, hb⟩ := h
  exact ⟨r, u, v, hRQ s r hr, ha, hb⟩

/-! ## Leftmost derivations -/

theorem leftmost_nil_iff {a b : List Symbol} : Leftmost R a [] b ↔ a = b := by
  constructor
  · intro h
    cases h
    rfl
  · rintro rfl
    exact .refl a

theorem leftmost_cons_iff {s : Step} {d : Derivation} {a c : List Symbol} :
    Leftmost R a (s :: d) c ↔ ∃ b, LeftmostStep R s a b ∧ Leftmost R b d c := by
  constructor
  · rintro (_ | ⟨h, t⟩)
    exact ⟨_, h, t⟩
  · rintro ⟨b, h, t⟩
    exact .step h t

/-- nothing is derived from nothing -/
theorem leftmost_empty {d : Derivation} {b : List Symbol} : Leftmost R [] d b ↔ d = [] ∧ b = [] := by
  constructor
  · intro h
    cases h with
    | refl => exact ⟨rfl, rfl⟩
    | step h t => exact absurd h not_leftmostStep_nil
  · rintro ⟨rfl, rfl⟩
    exact .refl []

/-- a terminal in front stays -/
theorem leftmost_terminal {c : Char} {d : Derivation} {a b : List Symbol} :
    Leftmost R (.terminal c :: a) d b ↔ ∃ b', b = .terminal c :: b' ∧ Leftmost R a d b' := by
  induction d generalizing a with
  | nil => simp only [leftmost_nil_iff]; grind
  | cons s d ih =>
    simp only [leftmost_cons_iff, leftmostStep_terminal]
    constructor
    · rintro ⟨_, ⟨a', rfl, h⟩, t⟩
      obtain ⟨b', rfl, t'⟩ := ih.1 t
      exact ⟨b', rfl, a', h, t'⟩
    · rintro ⟨b', rfl, a', h, t⟩
      exact ⟨_, ⟨a', rfl, h⟩, ih.2 ⟨b', rfl, t⟩⟩

/-- a nonterminal in front of a form that becomes a word is replaced first -/
theorem leftmost_nonterminal {n : Char} {d : Derivation} {a : List Symbol} {w : List Char} :
    Leftmost R (.nonterminal n :: a) d (word w) ↔
      ∃ i r t, d = ⟨n, i⟩ :: t ∧ R ⟨n, i⟩ r ∧ Leftmost R (r ++ a) t (word w) := by
  cases d with
  | nil =>
    simp only [leftmost_nil_iff]
    constructor
    · intro h
      obtain ⟨c, v, -, h, -⟩ := word_eq_cons_iff.1 h.symm
      contradiction
    · rintro ⟨i, r, t, h, -⟩
      contradiction
  | cons s d =>
    simp only [leftmost_cons_iff, leftmostStep_nonterminal]
    constructor
    · rintro ⟨_, ⟨rfl, r, hr, rfl⟩, t⟩
      exact ⟨s.alternative, r, d, rfl, hr, t⟩
    · rintro ⟨i, r, t, heq, hr, h⟩
      cases heq
      exact ⟨_, ⟨rfl, r, hr, rfl⟩, h⟩

theorem Leftmost.append {a b : List Symbol} {d : Derivation} (h : Leftmost R a d b) (c : List Symbol) :
    Leftmost R (a ++ c) d (b ++ c) := by
  induction h with
  | refl a => exact .refl _
  | step h _ ih => exact .step (h.append c) ih

theorem Leftmost.trans {a b c : List Symbol} {d e : Derivation} (h : Leftmost R a d b) (t : Leftmost R b e c) :
    Leftmost R a (d ++ e) c := by
  induction h with
  | refl a => exact t
  | step h _ ih => exact .step h (ih t)

theorem leftmost_word_append {u : List Char} {d : Derivation} {a b : List Symbol} (h : Leftmost R a d b) :
    Leftmost R (word u ++ a) d (word u ++ b) := by
  induction u with
  | nil => exact h
  | cons c u ih => exact leftmost_terminal.2 ⟨_, rfl, ih⟩

theorem Leftmost.mono (hRQ : ∀ s r, R s r → Q s r) {a b : List Symbol} {d : Derivation} (h : Leftmost R a d b) :
    Leftmost Q a d b := by
  induction h with
  | refl a => exact .refl a
  | step h _ ih => exact .step (h.mono hRQ) ih

/-- the steps of a leftmost derivation use rules of the system -/
theorem Leftmost.rule {a b : List Symbol} {d : Derivation} (h : Leftmost R a d b) : ∀ s ∈ d, ∃ r, R s r := by
  induction h with
  | refl a => simp
  | step h _ ih =>
    obtain ⟨r, u, v, hr, -⟩ := h
    simp only [List.mem_cons, forall_eq_or_imp]
    exact ⟨⟨r, hr⟩, ih⟩

/-! ## The three ways to generate a word -/

theorem yields_word (w : List Char) : Yields R (word w) w := by
  induction w with
  | nil => exact .nil
  | cons c w ih => exact .terminal ih

theorem Yields.append {a b : List Symbol} {u v : List Char} (ha : Yields R a u) (hb : Yields R b v) :
    Yields R (a ++ b) (u ++ v) := by
  induction ha with
  | nil => exact hb
  | terminal _ ih => exact .terminal ih
  | nonterminal hr hu _ _ ih =>
    rw [List.append_assoc]
    exact .nonterminal hr hu ih

/-- the word below a form in two parts has a part below each -/
theorem yields_append_iff {a b : List Symbol} {w : List Char} :
    Yields R (a ++ b) w ↔ ∃ u v, w = u ++ v ∧ Yields R a u ∧ Yields R b v := by
  constructor
  · intro h
    induction a generalizing w with
    | nil => exact ⟨[], w, rfl, .nil, h⟩
    | cons s a ih =>
      cases h with
      | terminal h =>
        obtain ⟨u, v, rfl, hu, hv⟩ := ih h
        exact ⟨_ :: u, v, rfl, .terminal hu, hv⟩
      | nonterminal hr hx h =>
        obtain ⟨u, v, rfl, hu, hv⟩ := ih h
        exact ⟨_ ++ u, v, by simp, .nonterminal hr hx hu, hv⟩
  · rintro ⟨u, v, rfl, ha, hb⟩
    exact ha.append hb

/-- a form yields what it can be rewritten to yield -/
theorem yields_of_rewrites {a b : List Symbol} {w : List Char} (h : Rewrites R a b) (hb : Yields R b w) :
    Yields R a w := by
  obtain ⟨s, r, u, v, hr, rfl, rfl⟩ := h
  obtain ⟨x, y, rfl, hx, hv⟩ := yields_append_iff.1 hb
  obtain ⟨x, z, rfl, hu, hz⟩ := yields_append_iff.1 hx
  rw [List.append_assoc]
  exact hu.append (.nonterminal hr hz hv)

theorem yields_of_derives {a : List Symbol} {w : List Char} (h : Derives R a (word w)) : Yields R a w := by
  induction h using Relation.ReflTransGen.head_induction_on with
  | refl => exact yields_word w
  | head h _ ih => exact yields_of_rewrites h ih

theorem Derives.mono (hRQ : ∀ s r, R s r → Q s r) {a b : List Symbol} (h : Derives R a b) : Derives Q a b := by
  induction h with
  | refl => exact .refl
  | tail _ h ih =>
    obtain ⟨s, r, u, v, hr, hb, hc⟩ := h
    exact ih.tail ⟨s, r, u, v, hRQ s r hr, hb, hc⟩

theorem Leftmost.derives {a b : List Symbol} {d : Derivation} (h : Leftmost R a d b) : Derives R a b := by
  induction h with
  | refl a => exact .refl
  | step h _ ih => exact .head h.rewrites ih

theorem exists_leftmost_of_yields {a : List Symbol} {w : List Char} (h : Yields R a w) :
    ∃ d, Leftmost R a d (word w) := by
  induction h with
  | nil => exact ⟨[], .refl []⟩
  | terminal _ ih =>
    obtain ⟨d, hd⟩ := ih
    exact ⟨d, leftmost_terminal.2 ⟨_, rfl, hd⟩⟩
  | @nonterminal s r a u v hr _ _ ihu ihv =>
    obtain ⟨d, hd⟩ := ihu
    obtain ⟨e, he⟩ := ihv
    -- first the word below the nonterminal is completed, then the rest of the form
    have hrest : Leftmost R (r ++ a) (d ++ e) (word (u ++ v)) := by
      rw [word_append]
      exact (hd.append a).trans (leftmost_word_append he)
    exact ⟨s :: (d ++ e), leftmost_nonterminal.2 ⟨s.alternative, r, d ++ e, rfl, hr, hrest⟩⟩

/-- **Leftmost is enough.** The words with a leftmost derivation are the words that the form yields. -/
theorem exists_leftmost_iff_yields {a : List Symbol} {w : List Char} :
    (∃ d, Leftmost R a d (word w)) ↔ Yields R a w :=
  ⟨fun ⟨_, h⟩ => yields_of_derives h.derives, exists_leftmost_of_yields⟩

/-- **The order does not matter.** The words that can be derived in any order are the words that the form yields. -/
theorem derives_iff_yields {a : List Symbol} {w : List Char} : Derives R a (word w) ↔ Yields R a w := by
  refine ⟨yields_of_derives, fun h => ?_⟩
  obtain ⟨d, hd⟩ := exists_leftmost_of_yields h
  exact hd.derives

/-! ## Replaying recorded steps -/

namespace Grammar

/-- the form after a step on its first nonterminal, if the step is for that one and names an alternative -/
def replace? (g : Grammar) (s : Step) : List Symbol → Option (List Symbol)
  | [] => none
  | .terminal c :: rest => (g.replace? s rest).map (.terminal c :: ·)
  | .nonterminal n :: rest => if s.nonterminal = n then (g.alternative? s).map (· ++ rest) else none

/-- the form after the steps, if each can be carried out -/
def replay (g : Grammar) (a : List Symbol) : Derivation → Option (List Symbol)
  | [] => some a
  | s :: d => (g.replace? s a).bind (g.replay · d)

theorem replace?_eq_some_iff {g : Grammar} {s : Step} {a b : List Symbol} :
    g.replace? s a = some b ↔ LeftmostStep g.Rule s a b := by
  induction a generalizing b with
  | nil => simp [replace?, not_leftmostStep_nil]
  | cons x a ih =>
    cases x with
    | terminal c =>
      simp only [replace?, Option.map_eq_some_iff, leftmostStep_terminal, ih]
      constructor
      · rintro ⟨b', h, rfl⟩
        exact ⟨b', rfl, h⟩
      · rintro ⟨b', rfl, h⟩
        exact ⟨b', h, rfl⟩
    | nonterminal n =>
      simp only [replace?, leftmostStep_nonterminal, Rule]
      split
      · next h => simp only [h, true_and, Option.map_eq_some_iff, eq_comm (a := b)]
      · next h => simp [h]

/-- **Replaying is deriving.** The steps can be carried out on a form, and lead to another, exactly when they are a
leftmost derivation by the rules of the grammar. -/
theorem replay_eq_some_iff {g : Grammar} {a b : List Symbol} {d : Derivation} :
    g.replay a d = some b ↔ Leftmost g.Rule a d b := by
  induction d generalizing a with
  | nil => simp [replay, leftmost_nil_iff]
  | cons s d ih => simp [replay, leftmost_cons_iff, Option.bind_eq_some_iff, replace?_eq_some_iff, ih]

end Grammar

end SimpleGrammar
