/-
Grammars and how they were built.

A grammar is built by edits, each of which names a nonterminal: it declares it, gives it one more alternative, or
takes all its alternatives away. What becomes of a nonterminal is decided by the edits that name it, in their order;
the edits of other nonterminals between them do not matter. Only the start symbol depends on which nonterminal was
named first, and it has no part in checking, recognizing or generating.

- `alternatives?_apply`, `alternatives?_build`: the alternatives after one edit, and after all of them.
- `check_congr`, `derive_congr`, `generate_congr`: what is answered from the rules alone.
- `build_by_history`: the grammar that edits make, and what grammars of the same histories have in common.
-/
import Mathlib.Data.List.DropRight
import SimpleGrammar.Proofs.Grammar.Definitions
import SimpleGrammar.Proofs.Recognition.Run
import SimpleGrammar.Sentence.Generation
import SimpleGrammar.Simplicity

namespace SimpleGrammar

namespace Grammar

/-! ## Edits -/

/-- a change to a grammar that is being built -/
inductive Edit where
  | declare (n : Char)
  /-- one more alternative, given by its text -/
  | addText (n : Char) (text : List Char)
  /-- one more alternative, given by its symbols -/
  | add (n : Char) (r : Rhs)
  /-- all alternatives taken away -/
  | clear (n : Char)
deriving DecidableEq, Repr

namespace Edit

/-- the nonterminal that the edit names -/
def nonterminal : Edit → Char
  | declare n | addText n _ | add n _ | clear n => n

/-- the grammar after the edit -/
def apply (g : Grammar) : Edit → Grammar
  | declare n => g.declare n
  | addText n text => g.add n (.ofText text)
  | add n r => g.add n r
  | clear n => g.clear n

/-- the alternative that the edit adds -/
def added? : Edit → Option Rhs
  | declare _ | clear _ => none
  | addText _ text => some (.ofText text)
  | add _ r => some r

def clears : Edit → Bool
  | clear _ => true
  | _ => false

/-- what becomes of the alternatives of the nonterminal -/
def change (e : Edit) (alts : Alternatives) : Alternatives := (if e.clears then [] else alts) ++ e.added?.toList

end Edit

/-- the grammar that edits make, from the empty one -/
def build (edits : List Edit) : Grammar := edits.foldl Edit.apply .empty

/-- the edits that name `n`, in order -/
def history (n : Char) (edits : List Edit) : List Edit := edits.filter (·.nonterminal = n)

/-- the edits after the last one that takes all alternatives away -/
def sinceClear (edits : List Edit) : List Edit := edits.rtakeWhile (!·.clears)

variable {g h : Grammar} {e : Edit} {edits edits' : List Edit} {n : Char}

/-! ## What an edit does -/

/-- **One edit.** It changes the alternatives of the nonterminal that it names, and no others. -/
theorem alternatives?_apply (g : Grammar) (e : Edit) (n : Char) :
    (e.apply g).alternatives? n =
      if n = e.nonterminal then some (e.change ((g.alternatives? n).getD [])) else g.alternatives? n := by
  by_cases hn : n = e.nonterminal
  · subst hn
    rw [if_pos rfl]
    cases e with
    | declare m => exact (alternatives?_define ..).trans (if_pos rfl)
    | addText m text => exact (alternatives?_define ..).trans (if_pos rfl)
    | add m r => exact (alternatives?_define ..).trans (if_pos rfl)
    | clear m => exact (alternatives?_clear ..).trans (if_pos rfl)
  · rw [if_neg hn]
    cases e with
    | declare m => exact (alternatives?_define ..).trans (if_neg hn)
    | addText m text => exact (alternatives?_define ..).trans (if_neg hn)
    | add m r => exact (alternatives?_define ..).trans (if_neg hn)
    | clear m => exact (alternatives?_clear ..).trans (if_neg hn)

theorem start_apply (g : Grammar) (e : Edit) : (e.apply g).start = g.start.or (some e.nonterminal) := by
  cases e <;> rfl

/-! ## What edits do in turn -/

theorem build_concat (edits : List Edit) (e : Edit) : build (edits ++ [e]) = e.apply (build edits) := by
  rw [build, List.foldl_concat]
  rfl

theorem history_concat (n : Char) (edits : List Edit) (e : Edit) :
    history n (edits ++ [e]) = history n edits ++ if n = e.nonterminal then [e] else [] := by
  rw [history, List.filter_append, List.filter_singleton]
  simp only [Bool.cond_decide, eq_comm (a := n)]
  rfl

theorem sinceClear_concat (edits : List Edit) (e : Edit) :
    sinceClear (edits ++ [e]) = if e.clears then [] else sinceClear edits ++ [e] := by
  rw [sinceClear, List.rtakeWhile_concat]
  cases e.clears <;> rfl

/-- the first nonterminal named is the start symbol -/
theorem start_build (edits : List Edit) : (build edits).start = (edits.map Edit.nonterminal).head? := by
  induction edits using List.reverseRecOn with
  | nil => rfl
  | append_singleton edits e ih =>
    rw [build_concat, start_apply, ih, List.map_append, List.head?_append]
    rfl

/-- the nonterminals are those that were named -/
theorem mem_nonterminals_build : n ∈ (build edits).nonterminals ↔ n ∈ edits.map Edit.nonterminal := by
  rw [mem_nonterminals_iff]
  induction edits using List.reverseRecOn with
  | nil => simp [build]
  | append_singleton edits e ih =>
    rw [build_concat, alternatives?_apply, List.map_append, List.mem_append, List.map_singleton, List.mem_singleton]
    by_cases hn : n = e.nonterminal
    · simp [hn]
    · rw [if_neg hn, ih, or_iff_left hn]

/-- the alternatives are those that were added since the last clear -/
theorem getD_alternatives?_build (edits : List Edit) (n : Char) :
    ((build edits).alternatives? n).getD [] = (sinceClear (history n edits)).filterMap Edit.added? := by
  induction edits using List.reverseRecOn with
  | nil => rfl
  | append_singleton edits e ih =>
    rw [build_concat, alternatives?_apply, history_concat]
    by_cases hn : n = e.nonterminal
    · rw [if_pos hn, if_pos hn, Option.getD_some, ih, sinceClear_concat, Edit.change]
      cases e with
      | clear m => rfl
      | _ => simp [Edit.clears, List.filterMap_append, Edit.added?]
    · rw [if_neg hn, if_neg hn, ih, List.append_nil]

/-- **The alternatives of a nonterminal.** There are some when it was named: those that were added to it since it was
last cleared, in order. -/
theorem alternatives?_build (edits : List Edit) (n : Char) :
    (build edits).alternatives? n =
      if n ∈ edits.map Edit.nonterminal then some ((sinceClear (history n edits)).filterMap Edit.added?) else none := by
  have hsome : ((build edits).alternatives? n).isSome ↔ n ∈ edits.map Edit.nonterminal := by
    rw [← mem_nonterminals_iff, mem_nonterminals_build]
  have hadded := getD_alternatives?_build edits n
  cases halts : (build edits).alternatives? n with
  | none =>
    rw [halts] at hsome
    rw [if_neg (by simpa using hsome)]
  | some alts =>
    rw [halts] at hsome hadded
    rw [if_pos (hsome.1 rfl), ← hadded, Option.getD_some]

theorem mem_map_nonterminal_iff : n ∈ edits.map Edit.nonterminal ↔ history n edits ≠ [] := by
  simp [history, List.filter_eq_nil_iff]

/-- edits with the same histories make the same rules -/
theorem rules_build_eq_of_history (hsame : ∀ n, history n edits = history n edits') :
    (build edits).rules = (build edits').rules := by
  apply CharMap.ext_find?
  intro n
  have hn : n ∈ edits.map Edit.nonterminal ↔ n ∈ edits'.map Edit.nonterminal := by
    rw [mem_map_nonterminal_iff, mem_map_nonterminal_iff, hsame]
  have halts : (build edits).alternatives? n = (build edits').alternatives? n := by
    rw [alternatives?_build, alternatives?_build, hsame]
    exact if_congr hn rfl rfl
  exact halts

/-! ## What is answered from the rules -/

theorem alternatives?_congr (hrules : g.rules = h.rules) (n : Char) : g.alternatives? n = h.alternatives? n := by
  rw [alternatives?, alternatives?, hrules]

theorem check_congr (hrules : g.rules = h.rules) (origin : Location) : g.check origin = h.check origin := by
  rw [check, check, violations, violations, hrules]

theorem move_congr (hrules : g.rules = h.rules) (k : Config) : k.move g = k.move h := by
  obtain ⟨stack, rest, p⟩ := k
  rcases stack with _ | ⟨t | n, below⟩ <;> rcases rest with _ | ⟨c, rest⟩ <;>
    simp only [Config.move, alternatives?_congr hrules]

/-- runs that make the same moves come to the same verdict -/
theorem runFrom_congr (hrules : g.rules = h.rules) (k : Config) : runFrom g k = runFrom h k := by
  fun_induction runFrom g k with
  | case1 k hk =>
    rw [move_congr hrules] at hk
    rw [runFrom_of_accept hk]
  | case2 k r hk =>
    rw [move_congr hrules] at hk
    rw [runFrom_of_reject hk]
  | case3 k next hk ih =>
    rw [move_congr hrules] at hk
    rw [runFrom_of_advance hk, ih]
  | case4 k s r next hk ih =>
    rw [move_congr hrules] at hk
    rw [runFrom_of_expand hk, ih]

theorem derive_congr (hrules : g.rules = h.rules) (w : List Char) (start : Char) :
    g.derive w start = h.derive w start :=
  runFrom_congr hrules _

/-- a symbol is expanded alike, by induction on the levels that are left -/
theorem expand_congr (hrules : g.rules = h.rules) (d : Draws) (maxDepth levels : Nat) :
    Sentence.expand g d maxDepth levels = Sentence.expand h d maxDepth levels := by
  induction levels with
  | zero =>
    funext depth s run
    cases s <;> simp only [Sentence.expand, alternatives?_congr hrules]
  | succ levels ih =>
    funext depth s run
    cases s <;> simp only [Sentence.expand, alternatives?_congr hrules, ih]

theorem generate_congr (hrules : g.rules = h.rules) (d : Draws) (maxDepth : Nat) (start : Char) (position : Nat) :
    Sentence.generate g d maxDepth start position = Sentence.generate h d maxDepth start position := by
  rw [Sentence.generate, Sentence.generate, expand_congr hrules]

/-! ## Histories -/

/-- **Built by histories.** The start symbol of a grammar that is built is the first nonterminal named, its
nonterminals are those named, and each of them has the alternatives that were added to it since it was last cleared,
in order. So edits which name every nonterminal in the same way, however they are interleaved, make the same rules:
every check, every derivation and recognition of an input and every generation from the same draws has the same
answer. -/
theorem build_by_history :
    (∀ edits : List Edit,
      (build edits).start = (edits.map Edit.nonterminal).head? ∧
      (∀ n, n ∈ (build edits).nonterminals ↔ n ∈ edits.map Edit.nonterminal) ∧
      ∀ n ∈ edits.map Edit.nonterminal,
        (build edits).alternatives? n = some ((sinceClear (history n edits)).filterMap Edit.added?)) ∧
    ∀ edits edits' : List Edit, (∀ n, history n edits = history n edits') →
      (build edits).rules = (build edits').rules ∧
      (∀ origin, (build edits).check origin = (build edits').check origin) ∧
      (∀ w start, (build edits).derive w start = (build edits').derive w start ∧
        (build edits).recognizes w start = (build edits').recognizes w start) ∧
      ∀ d maxDepth start position,
        Sentence.generate (build edits) d maxDepth start position =
          Sentence.generate (build edits') d maxDepth start position := by
  refine ⟨fun edits => ⟨start_build edits, fun n => mem_nonterminals_build, fun n hn => ?_⟩,
    fun edits edits' hsame => ?_⟩
  · rw [alternatives?_build, if_pos hn]
  · have hrules := rules_build_eq_of_history hsame
    refine ⟨hrules, check_congr hrules, fun w start => ⟨derive_congr hrules w start, ?_⟩, generate_congr hrules⟩
    rw [recognizes, recognizes, derive_congr hrules]

/-- `S -> aB | c`, and then `B -> b` in the place of `B -> x` -/
def inTurn : List Edit :=
  [.declare 'S', .addText 'S' ['a', 'B'], .add 'S' [.terminal 'c'], .addText 'B' ['x'], .clear 'B', .addText 'B' ['b']]

/-- the same edits, those of `B` begun first -/
def interleaved : List Edit :=
  [.addText 'B' ['x'], .declare 'S', .clear 'B', .addText 'S' ['a', 'B'], .addText 'B' ['b'], .add 'S' [.terminal 'c']]

/-- the start symbols differ, and `ab` is derived alike -/
theorem build_by_history_interleaved :
    (∀ n, history n inTurn = history n interleaved) ∧
      (build inTurn).start = some 'S' ∧ (build interleaved).start = some 'B' ∧
      (build interleaved).alternatives? 'B' = some [[.terminal 'b']] ∧
      (build inTurn).rules = (build interleaved).rules ∧
      (build interleaved).derive ['a', 'b'] 'S' = .ok [⟨'S', 0⟩, ⟨'B', 0⟩] := by
  have hsame : ∀ n, history n inTurn = history n interleaved := by
    intro n
    by_cases hs : 'S' = n
    · subst hs
      rfl
    · by_cases hb : 'B' = n
      · subst hb
        rfl
      · simp [history, inTurn, interleaved, Edit.nonterminal, hs, hb]
  obtain ⟨hbuild, hequal⟩ := build_by_history
  obtain ⟨hstart, -, -⟩ := hbuild inTurn
  obtain ⟨hstart', -, halts⟩ := hbuild interleaved
  obtain ⟨hrules, -, hderive, -⟩ := hequal inTurn interleaved hsame
  refine ⟨hsame, hstart, hstart', halts 'B' (by decide), hrules, ?_⟩
  rw [← (hderive ['a', 'b'] 'S').1]
  cbv

end Grammar

end SimpleGrammar
