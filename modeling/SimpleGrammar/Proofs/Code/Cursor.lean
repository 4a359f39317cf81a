/-
The cursor is an index into the list of tokens.

A cursor holds texts that are still to be scanned, and scans one token at a time. Here it is compared with a machine
that has the whole list of tokens from the start and holds places in it (`Index`). No sequence of actions tells the
two apart: scanning that is taken up in the middle of the text goes on exactly as the scan of the whole text does from
there.

- `Index`: a place in a list of tokens, with saved places.
- `act_tracks`: one action answers the same on both, and leaves them at the same place.
- `run_eq_index`: so does every sequence of actions; and where the tokens end, every further `next` answers that.
-/
import Mathlib.Data.List.Forall2
import SimpleGrammar.Code.Cursor
import SimpleGrammar.Proofs.Code.Scanning

namespace SimpleGrammar.Code

open Cursor (Action Answer)

/-- a cursor in a list of tokens that is known beforehand -/
structure Index where
  /-- how many of the tokens have been taken -/
  place : Nat
  /-- saved places, the latest first -/
  saved : List Nat

namespace Index

/-- before the first token -/
def start : Index := ⟨0, []⟩

def act (ts : List Token) (i : Index) : Action → Index × Answer
  | .next => ({ i with place := min (i.place + 1) ts.length }, .token ts[i.place]?)
  | .save => ({ i with saved := i.place :: i.saved }, .number (i.saved.length + 1))
  | .restore =>
    match i.saved with
    | [] => (i, .number 0)
    | place :: below => (⟨place, below⟩, .number below.length)
  | .rest => (i, .tokens (ts.drop i.place))
  | .count => (i, .number (ts.length - i.place))

def run (ts : List Token) (i : Index) : List Action → List Answer
  | [] => []
  | a :: rest => (i.act ts a).2 :: run ts (i.act ts a).1 rest

/-- where a sequence of actions leads -/
def after (ts : List Token) (i : Index) (actions : List Action) : Index :=
  actions.foldl (fun i a => (i.act ts a).1) i

variable {ts : List Token} {i : Index}

theorem run_append (as bs : List Action) : i.run ts (as ++ bs) = i.run ts as ++ (i.after ts as).run ts bs := by
  induction as generalizing i with
  | nil => rfl
  | cons a as ih => exact congrArg ((i.act ts a).2 :: ·) ih

/-- taking `m` tokens answers with those at the next `m` indices, of which no index past the end has one -/
theorem run_replicate_next (hi : i.place ≤ ts.length) (m : Nat) :
    i.run ts (List.replicate m .next) = (List.range m).map fun j => .token ts[i.place + j]? := by
  induction m generalizing i with
  | zero => rfl
  | succ m ih =>
    have hnext : ∀ j, ts[min (i.place + 1) ts.length + j]? = ts[i.place + (j + 1)]? := by
      intro j
      rcases Nat.lt_or_ge i.place ts.length with hlt | hge
      · rw [Nat.min_eq_left hlt]
        congr 1
        omega
      · rw [List.getElem?_eq_none (by omega), List.getElem?_eq_none (by omega)]
    calc i.run ts (List.replicate (m + 1) .next)
      _ = .token ts[i.place]? :: (i.act ts .next).1.run ts (List.replicate m .next) := rfl
      _ = .token ts[i.place]? :: (List.range m).map fun j => .token ts[min (i.place + 1) ts.length + j]? := by
        rw [ih (Nat.min_le_right ..)]
        rfl
      _ = (List.range (m + 1)).map fun j => .token ts[i.place + j]? := by
        simp [List.range_succ_eq_map, Function.comp_def, hnext]

end Index

/-! ## A text and a place -/

variable {ts : List Token} {text rest : List Char} {i : Index} {k : Cursor} {place : Nat} {t : Token}

/-- what is still to be scanned gives the tokens from a place on -/
structure Stands (ts : List Token) (text : List Char) (place : Nat) : Prop where
  le : place ≤ ts.length
  tokens : tokenize text = ts.drop place

theorem Stands.next?_eq_none (h : Stands ts text place) (hnone : next? text = none) :
    ts[place]? = none ∧ min (place + 1) ts.length = place := by
  have hdrop : ts.drop place = [] := by rw [← h.tokens, tokenize_of_next?_eq_none hnone]
  have hlength : ts.length ≤ place := List.drop_eq_nil_iff.1 hdrop
  have hle := h.le
  exact ⟨List.getElem?_eq_none hlength, by omega⟩

theorem Stands.next?_eq_some (h : Stands ts text place) (hsome : next? text = some (t, rest)) :
    ts[place]? = some t ∧ Stands ts rest (min (place + 1) ts.length) := by
  have hdrop : ts.drop place = t :: tokenize rest := by rw [← h.tokens, tokenize_of_next?_eq_some hsome]
  have hlt : place < ts.length := by
    have hlength := congrArg List.length hdrop
    simp only [List.length_drop, List.length_cons] at hlength
    omega
  rw [Nat.min_eq_left hlt]
  refine ⟨?_, hlt, ?_⟩
  · calc ts[place]?
      _ = (ts.drop place).head? := List.head?_drop.symm
      _ = some t := by rw [hdrop, List.head?_cons]
  · calc tokenize rest
      _ = (ts.drop place).tail := by rw [hdrop, List.tail_cons]
      _ = ts.drop (place + 1) := List.tail_drop

/-! ## The cursor and the index -/

/-- the cursor and the index are at one place, and have saved the same ones -/
structure Index.Tracks (ts : List Token) (i : Index) (k : Cursor) : Prop where
  stands : Stands ts k.rest i.place
  saved : List.Forall₂ (Stands ts) k.saved i.saved

theorem tracks_start (text : List Char) : Index.start.Tracks (tokenize text) (.ofText text) :=
  ⟨⟨Nat.zero_le _, rfl⟩, .nil⟩

/-- **One action.** It answers the same on the cursor and on the index, and leaves the two at one place. -/
theorem act_tracks (h : i.Tracks ts k) (a : Action) :
    (k.act a).2 = (i.act ts a).2 ∧ (i.act ts a).1.Tracks ts (k.act a).1 := by
  cases a with
  | next =>
    simp only [Cursor.act, Index.act]
    split
    · next hnone =>
      obtain ⟨hend, hplace⟩ := h.stands.next?_eq_none hnone
      rw [hend, hplace]
      exact ⟨rfl, h⟩
    · next hsome =>
      obtain ⟨htoken, hstands⟩ := h.stands.next?_eq_some hsome
      rw [htoken]
      exact ⟨rfl, hstands, h.saved⟩
  | save =>
    refine ⟨?_, h.stands, .cons h.stands h.saved⟩
    simp only [Cursor.act, Index.act, h.saved.length_eq]
  | restore =>
    obtain ⟨text, saved⟩ := k
    obtain ⟨place, places⟩ := i
    cases h.saved with
    | nil => exact ⟨rfl, h⟩
    | cons hplace hbelow =>
      refine ⟨?_, hplace, hbelow⟩
      simp only [Cursor.act, Index.act, hbelow.length_eq]
  | rest =>
    refine ⟨?_, h⟩
    simp only [Cursor.act, Index.act, h.stands.tokens]
  | count =>
    refine ⟨?_, h⟩
    simp only [Cursor.act, Index.act, h.stands.tokens, List.length_drop]

theorem run_tracks (h : i.Tracks ts k) (actions : List Action) : k.run actions = i.run ts actions := by
  induction actions generalizing i k with
  | nil => rfl
  | cons a rest ih =>
    obtain ⟨hanswer, htracks⟩ := act_tracks h a
    exact congrArg₂ List.cons hanswer (ih htracks)

theorem after_tracks (h : i.Tracks ts k) (actions : List Action) : ∃ k', (i.after ts actions).Tracks ts k' := by
  induction actions generalizing i k with
  | nil => exact ⟨k, h⟩
  | cons a rest ih => exact ih (act_tracks h a).2

/-- **The cursor is an index.** All actions on a cursor in a text are answered as those on an index into the list of the
text's tokens are. In particular `m` times `next` after them takes the tokens at the index reached and after it, one
after the other, and answers that there is none from the end of the list on. -/
theorem run_eq_index (text : List Char) (actions : List Action) :
    (Cursor.ofText text).run actions = Index.start.run (tokenize text) actions ∧
    ∀ m, (Cursor.ofText text).run (actions ++ List.replicate m .next) =
      (Cursor.ofText text).run actions ++
        (List.range m).map fun j => .token (tokenize text)[(Index.start.after (tokenize text) actions).place + j]? := by
  have hrun := run_tracks (tracks_start text)
  refine ⟨hrun actions, ?_⟩
  intro m
  obtain ⟨k, hk⟩ := after_tracks (tracks_start text) actions
  rw [hrun, hrun, Index.run_append, Index.run_replicate_next hk.stands.le]

end SimpleGrammar.Code
