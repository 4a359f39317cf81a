/-
Finite maps from characters, kept as lists sorted by code point.

Each map has one representation: the entries in increasing order of their characters, every character at most once. So
equal maps are equal as values, and listing a map lists it in order. `find?` is the view of a map; `ext_find?` says that
nothing else matters.
-/
namespace SimpleGrammar

structure CharMap (β : Type) where
  entries : List (Char × β)
  /-- by increasing character, hence without repetition -/
  sorted : entries.Pairwise fun a b => a.1 < b.1
deriving DecidableEq

namespace CharMap

variable {β γ : Type}

def empty : CharMap β := ⟨[], .nil⟩

instance : EmptyCollection (CharMap β) := ⟨empty⟩

instance : Inhabited (CharMap β) := ⟨empty⟩

/-- the characters of the map in increasing order -/
def keys (m : CharMap β) : List Char := m.entries.map Prod.fst

def size (m : CharMap β) : Nat := m.entries.length

/-- the value at `c` -/
def find? (m : CharMap β) (c : Char) : Option β := m.entries.lookup c

/-! ## Changing one entry -/

/-- `f` of the value at `c`, or of `none` where there is no entry, put at `c` -/
def updateEntries (c : Char) (f : Option β → β) : List (Char × β) → List (Char × β)
  | [] => [(c, f none)]
  | (d, v) :: rest =>
    if c < d then (c, f none) :: (d, v) :: rest
    else if c = d then (d, f (some v)) :: rest
    else (d, v) :: updateEntries c f rest

theorem fst_of_mem_updateEntries {c : Char} {f : Option β → β} {l : List (Char × β)} {e : Char × β}
    (h : e ∈ updateEntries c f l) : e.1 = c ∨ ∃ e' ∈ l, e'.1 = e.1 := by
  induction l with
  | nil => simp_all [updateEntries]
  | cons d rest ih => grind [updateEntries]

theorem pairwise_updateEntries (c : Char) (f : Option β → β) {l : List (Char × β)}
    (h : l.Pairwise fun a b => a.1 < b.1) : (updateEntries c f l).Pairwise fun a b => a.1 < b.1 := by
  induction l with
  | nil => simp [updateEntries]
  | cons d rest ih =>
    obtain ⟨hd, hrest⟩ := List.pairwise_cons.1 h
    unfold updateEntries
    split
    · next hlt =>
      refine List.pairwise_cons.2 ⟨fun e he => ?_, h⟩
      rcases List.mem_cons.1 he with rfl | he
      · exact hlt
      · exact Char.lt_trans hlt (hd e he)
    · next hnlt =>
      split
      · exact List.pairwise_cons.2 ⟨hd, hrest⟩
      · next hne =>
        refine List.pairwise_cons.2 ⟨fun e he => ?_, ih hrest⟩
        rcases fst_of_mem_updateEntries he with he | ⟨e', he', heq⟩
        · simp only [he]; grind
        · simpa [heq] using hd e' he'

/-- the map with the value at `c` replaced by `f` of it -/
def update (m : CharMap β) (c : Char) (f : Option β → β) : CharMap β :=
  ⟨updateEntries c f m.entries, pairwise_updateEntries c f m.sorted⟩

/-- the map without an entry at `c` -/
def erase (m : CharMap β) (c : Char) : CharMap β :=
  ⟨m.entries.filter (·.1 ≠ c), m.sorted.filter _⟩

/-- `f` applied to every value -/
def map (f : β → γ) (m : CharMap β) : CharMap γ :=
  ⟨m.entries.map fun e => (e.1, f e.2), List.pairwise_map.2 m.sorted⟩

/-! ## The view -/

theorem lookup_eq_none_of_lt {c : Char} {l : List (Char × β)} (h : ∀ e ∈ l, c < e.1) : l.lookup c = none := by
  simp only [List.lookup_eq_none_iff]
  intro e he
  have := h e he
  grind

@[simp] theorem find?_empty (c : Char) : (∅ : CharMap β).find? c = none := rfl

theorem find?_update (m : CharMap β) (c d : Char) (f : Option β → β) :
    (m.update c f).find? d = if d = c then some (f (m.find? c)) else m.find? d := by
  obtain ⟨l, hl⟩ := m
  simp only [find?, update]
  induction l with
  | nil => grind [updateEntries]
  | cons e rest ih =>
    obtain ⟨he, hrest⟩ := List.pairwise_cons.1 hl
    have ih := ih hrest
    have hnone : c < e.1 → rest.lookup c = none := fun hlt =>
      lookup_eq_none_of_lt fun e' he' => Char.lt_trans hlt (he e' he')
    grind [updateEntries]

theorem find?_erase (m : CharMap β) (c d : Char) :
    (m.erase c).find? d = if d = c then none else m.find? d := by
  obtain ⟨l, hl⟩ := m
  simp only [find?, erase]
  induction l with
  | nil => simp
  | cons e rest ih =>
    have ih := ih (List.pairwise_cons.1 hl).2
    grind

theorem find?_map (f : β → γ) (m : CharMap β) (c : Char) : (m.map f).find? c = (m.find? c).map f := by
  obtain ⟨l, hl⟩ := m
  simp only [find?, map]
  induction l with
  | nil => simp
  | cons e rest ih =>
    have ih := ih (List.pairwise_cons.1 hl).2
    grind

theorem pairwise_keys (m : CharMap β) : m.keys.Pairwise (· < ·) := List.pairwise_map.2 m.sorted

/-- no character is a key twice -/
theorem nodup_keys (m : CharMap β) : m.keys.Nodup := m.pairwise_keys.imp Char.ne_of_lt

theorem mem_keys_iff {m : CharMap β} {c : Char} : c ∈ m.keys ↔ (m.find? c).isSome := by
  obtain ⟨l, hl⟩ := m
  simp only [find?, keys]
  induction l with
  | nil => simp
  | cons e rest ih =>
    have ih := ih (List.pairwise_cons.1 hl).2
    grind

theorem mem_entries_iff {m : CharMap β} {c : Char} {v : β} : (c, v) ∈ m.entries ↔ m.find? c = some v := by
  obtain ⟨l, hl⟩ := m
  simp only [find?]
  induction l with
  | nil => simp
  | cons e rest ih =>
    obtain ⟨he, hrest⟩ := List.pairwise_cons.1 hl
    have ih := ih hrest
    have hlt := fun h => he (c, v) h
    grind

/-- maps with the same values are the same -/
theorem ext_find? {m n : CharMap β} (h : ∀ c, m.find? c = n.find? c) : m = n := by
  obtain ⟨l, hl⟩ := m
  obtain ⟨k, hk⟩ := n
  simp only [find?] at h
  suffices l = k by subst this; rfl
  induction l generalizing k with
  | nil =>
    cases k with
    | nil => rfl
    | cons e rest => have := h e.1; grind
  | cons e rest ih =>
    cases k with
    | nil => have := h e.1; grind
    | cons e' rest' =>
      obtain ⟨he, hrest⟩ := List.pairwise_cons.1 hl
      obtain ⟨he', hrest'⟩ := List.pairwise_cons.1 hk
      have none₁ : ∀ c, c < e.1 → (e :: rest).lookup c = none := fun c hc =>
        lookup_eq_none_of_lt fun x hx => by
          rcases List.mem_cons.1 hx with rfl | hx
          · exact hc
          · exact Char.lt_trans hc (he x hx)
      have none₂ : ∀ c, c < e'.1 → (e' :: rest').lookup c = none := fun c hc =>
        lookup_eq_none_of_lt fun x hx => by
          rcases List.mem_cons.1 hx with rfl | hx
          · exact hc
          · exact Char.lt_trans hc (he' x hx)
      have hkey : e.1 = e'.1 := by
        have h₁ := h e.1
        have h₂ := h e'.1
        have n₁ := none₁ e'.1
        have n₂ := none₂ e.1
        grind
      have hval : e.2 = e'.2 := by
        have := h e.1
        grind
      have hee : e = e' := Prod.ext hkey hval
      subst hee
      have hrec : rest = rest' := ih hrest rest' hrest' fun c => by
        by_cases hc : c = e.1
        · have a := lookup_eq_none_of_lt (c := e.1) he
          have b := lookup_eq_none_of_lt (c := e.1) he'
          rw [hc, a, b]
        · have := h c
          grind
      rw [hrec]

end CharMap

end SimpleGrammar
