/-
The configurations that a run passes through.

A run and its trail are found by the same moves. Here they are one thing: a transcript is the list of configurations
from the first to the last, each reached from the one before by its move, together with the result that the last one
gives. What holds of a run configuration by configuration is proved along its transcript.

- `transcript_trail`: the trail of a run is its transcript, with the result of the run.
- `Transcript.invariant`: what a move preserves holds in every configuration, also when it speaks of the expansion made
  last.
-/
import SimpleGrammar.Proofs.Recognition.Run

namespace SimpleGrammar

variable {g : Grammar} {k k' : Config} {ks : List Config} {s : Step} {r : Rhs} {result : Except Rejection Derivation}

/-! ## What a move does -/

/-- the run accepts when nothing is expected and nothing is left -/
theorem stack_of_accept (h : k.move g = .accept) : k.stack = [] ∧ k.rest = [] := by
  obtain ⟨stack, rest, p⟩ := k
  rcases stack with _ | ⟨_ | n, below⟩ <;> rcases rest with _ | ⟨c, rest⟩ <;> simp only [Config.move] at h
  · exact ⟨rfl, rfl⟩
  all_goals try contradiction
  all_goals split at h <;> contradiction

/-- a terminal on top is read off the input -/
theorem advance_cases (h : k.move g = .advance k') :
    ∃ c, k.stack = .terminal c :: k'.stack ∧ k.rest = c :: k'.rest ∧ k'.position = k.position + 1 := by
  obtain ⟨stack, rest, p⟩ := k
  rcases stack with _ | ⟨t | n, below⟩ <;> rcases rest with _ | ⟨c, rest⟩ <;> simp only [Config.move] at h
  all_goals try contradiction
  · split at h
    · next htc =>
      cases h
      exact ⟨c, by rw [htc], rfl, rfl⟩
    · contradiction
  · split at h <;> contradiction

/-- a nonterminal on top makes way for the alternative that the next character selects -/
theorem expand_cases (h : k.move g = .expand s r k') :
    ∃ n c i below rest, k.stack = .nonterminal n :: below ∧ k.rest = c :: rest ∧
      select ((g.alternatives? n).getD []) c = some (r, i) ∧ s = ⟨n, i⟩ ∧
      k'.stack = r ++ below ∧ k'.rest = k.rest ∧ k'.position = k.position := by
  obtain ⟨stack, rest, p⟩ := k
  rcases stack with _ | ⟨t | n, below⟩ <;> rcases rest with _ | ⟨c, rest⟩ <;> simp only [Config.move] at h
  all_goals try contradiction
  · split at h <;> contradiction
  · split at h
    · contradiction
    · next q i hsel =>
      cases h
      exact ⟨n, c, i, below, rest, rfl, rfl, hsel, rfl, rfl, rfl, rfl⟩

theorem expansion?_of_accept (h : k.move g = .accept) : k.expansion? g = none := by
  simp [Config.expansion?, h]

theorem expansion?_of_reject {e : Rejection} (h : k.move g = .reject e) : k.expansion? g = none := by
  simp [Config.expansion?, h]

theorem expansion?_of_advance (h : k.move g = .advance k') : k.expansion? g = none := by
  simp [Config.expansion?, h]

theorem expansion?_of_expand (h : k.move g = .expand s r k') :
    k.expansion? g = some ⟨s.nonterminal, r, k.position⟩ := by
  simp [Config.expansion?, h]

theorem exists_expand_of_expansion? {e : Expansion} (h : k.expansion? g = some e) :
    ∃ s r k', k.move g = .expand s r k' ∧ e = ⟨s.nonterminal, r, k.position⟩ := by
  unfold Config.expansion? at h
  split at h
  · next s r k' hmove =>
    cases h
    exact ⟨s, r, k', hmove, rfl⟩
  · contradiction

/-! ## Transcripts -/

/-- the configurations of a run from the first one on, and how the run ends -/
inductive Transcript (g : Grammar) : Config → List Config → Except Rejection Derivation → Prop
  | accept {k : Config} (h : k.move g = .accept) : Transcript g k [k] (.ok [])
  | reject {k : Config} {e : Rejection} (h : k.move g = .reject e) : Transcript g k [k] (.error e)
  | advance {k k' : Config} {ks : List Config} {result : Except Rejection Derivation} (h : k.move g = .advance k')
    (t : Transcript g k' ks result) : Transcript g k (k :: ks) result
  | expand {k k' : Config} {s : Step} {r : Rhs} {ks : List Config} {result : Except Rejection Derivation}
    (h : k.move g = .expand s r k') (t : Transcript g k' ks result) : Transcript g k (k :: ks) (result.map (s :: ·))

/-- **The trail is the run.** Its configurations lead by their moves to the result. -/
theorem transcript_trail (g : Grammar) (k : Config) : Transcript g k (trail g k) (runFrom g k) := by
  fun_induction trail g k with
  | case1 k h =>
    rw [runFrom_of_accept h]
    exact .accept h
  | case2 k e h =>
    rw [runFrom_of_reject h]
    exact .reject h
  | case3 k k' h ih =>
    rw [runFrom_of_advance h]
    exact .advance h ih
  | case4 k s r k' h ih =>
    rw [runFrom_of_expand h]
    exact .expand h ih

/-- the expansion made last in the configurations, if there is one -/
def lastExpansion? (g : Grammar) (ks : List Config) : Option Expansion := (ks.filterMap (·.expansion? g)).getLast?

@[simp] theorem lastExpansion?_nil : lastExpansion? g [] = none := rfl

theorem lastExpansion?_cons : lastExpansion? g (k :: ks) = (lastExpansion? g ks).or (k.expansion? g) := by
  unfold lastExpansion?
  cases h : k.expansion? g with
  | none => rw [List.filterMap_cons_none h, Option.or_none]
  | some e =>
    rw [List.filterMap_cons_some h, List.getLast?_cons]
    cases (ks.filterMap (·.expansion? g)).getLast? <;> rfl

/-- each place in a list is its first or a later one -/
theorem forall_places_cons {Q : List Config → Config → Prop} :
    (∀ before k' after, k :: ks = before ++ k' :: after → Q before k') ↔
      Q [] k ∧ ∀ before k' after, ks = before ++ k' :: after → Q (k :: before) k' := by
  constructor
  · intro h
    exact ⟨h [] k ks rfl, fun before k' after hks => h (k :: before) k' after (by rw [hks, List.cons_append])⟩
  · rintro ⟨hfirst, hlater⟩ before k' after hks
    cases before with
    | nil =>
      cases hks
      exact hfirst
    | cons b before =>
      obtain ⟨rfl, htail⟩ := List.cons.inj hks
      exact hlater before k' after htail

/-- **Invariants.** What holds at the beginning and is preserved by both moves that go on holds in every
configuration. It may speak of the expansion made last, in the configurations before or, if none is made there,
earlier. -/
theorem Transcript.invariant {P : Option Expansion → Config → Prop}
    (hadvance : ∀ last k k', k.move g = .advance k' → P last k → P last k')
    (hexpand : ∀ last k s r k', k.move g = .expand s r k' → P last k → P (some ⟨s.nonterminal, r, k.position⟩) k')
    (t : Transcript g k ks result) (last : Option Expansion) (hk : P last k) :
    ∀ before k' after, ks = before ++ k' :: after → P ((lastExpansion? g before).or last) k' := by
  induction t generalizing last with
  | accept _ => exact forall_places_cons.2 ⟨hk, by simp⟩
  | reject _ => exact forall_places_cons.2 ⟨hk, by simp⟩
  | @advance k next ks _ h _ ih =>
    refine forall_places_cons.2 ⟨hk, fun before k' after hks => ?_⟩
    rw [lastExpansion?_cons, expansion?_of_advance h, Option.or_none]
    exact ih last (hadvance last k next h hk) before k' after hks
  | @expand k next s r ks _ h _ ih =>
    refine forall_places_cons.2 ⟨hk, fun before k' after hks => ?_⟩
    rw [lastExpansion?_cons, expansion?_of_expand h, Option.or_assoc, Option.some_or]
    exact ih _ (hexpand last k s r next h hk) before k' after hks

end SimpleGrammar
