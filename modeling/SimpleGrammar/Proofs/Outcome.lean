/-
Outcomes: a result, or a reason why there is none.

- `isOk_iff`, `isOk_eq_false_iff`: whether there is a result.
- `map_eq_ok_iff`: a changed result comes from a result.
- `mapM_eq_ok_iff`: several computations have their results together when each of them has its own.
- `mapM_eq_error_iff`: what is wrong with several computations is what is wrong with the first that has no result.
-/
namespace SimpleGrammar.Outcome

variable {ε α β : Type} {f : α → β} {h : α → Except ε β} {x : Except ε α}

theorem isOk_iff : x.isOk = true ↔ ∃ a, x = .ok a := by
  cases x <;> simp [Except.isOk, Except.toBool]

theorem isOk_eq_false_iff : x.isOk = false ↔ ∃ e, x = .error e := by
  cases x <;> simp [Except.isOk, Except.toBool]

theorem map_eq_ok_iff {b : β} : x.map f = .ok b ↔ ∃ a, x = .ok a ∧ f a = b := by
  cases x <;> simp [Except.map]

/-- and what is wrong stays as it is -/
theorem map_eq_error_iff {e : ε} : x.map f = .error e ↔ x = .error e := by
  cases x <;> simp [Except.map]

theorem bind_eq_ok_iff {b : β} : x >>= h = .ok b ↔ ∃ a, x = .ok a ∧ h a = .ok b := by
  cases x <;> simp [bind, Except.bind]

theorem mapM_cons_eq_ok_iff {a : α} {as : List α} {bs : List β} :
    (a :: as).mapM h = .ok bs ↔ ∃ b, h a = .ok b ∧ ∃ rest, as.mapM h = .ok rest ∧ bs = b :: rest := by
  simp only [List.mapM_cons, bind_eq_ok_iff, pure, Except.pure, Except.ok.injEq, eq_comm (a := bs)]

/-- **Results together.** They are the results of the computations one by one. -/
theorem mapM_eq_ok_iff {as : List α} {bs : List β} : as.mapM h = .ok bs ↔ as.map h = bs.map .ok := by
  induction as generalizing bs with
  | nil => simp [pure, Except.pure, eq_comm (a := [])]
  | cons a as ih =>
    rw [mapM_cons_eq_ok_iff]
    constructor
    · rintro ⟨b, hb, rest, hrest, rfl⟩
      rw [List.map_cons, List.map_cons, hb, ih.1 hrest]
    · intro heq
      cases bs with
      | nil => cases heq
      | cons b rest =>
        obtain ⟨hb, hrest⟩ := List.cons.inj heq
        exact ⟨b, hb, rest, ih.2 hrest, rfl⟩

/-- **No results together.** What is wrong is what is wrong with the first computation that has no result. -/
theorem mapM_eq_error_iff {as : List α} {e : ε} :
    as.mapM h = .error e ↔
      ∃ before a after, as = before ++ a :: after ∧ (∀ b ∈ before, ∃ r, h b = .ok r) ∧ h a = .error e := by
  induction as with
  | nil => simp [pure, Except.pure]
  | cons a as ih =>
    rw [List.mapM_cons]
    constructor
    · intro hm
      cases ha : h a with
      | error e' =>
        rw [ha] at hm
        cases hm
        exact ⟨[], a, as, rfl, by simp, ha⟩
      | ok r =>
        rw [ha] at hm
        cases has : as.mapM h with
        | error e' =>
          rw [has] at hm
          cases hm
          obtain ⟨before, b, after, rfl, hbefore, hb⟩ := ih.1 has
          exact ⟨a :: before, b, after, rfl, List.forall_mem_cons.2 ⟨⟨r, ha⟩, hbefore⟩, hb⟩
        | ok rs =>
          rw [has] at hm
          cases hm
    · rintro ⟨before, b, after, has, hbefore, hb⟩
      cases before with
      | nil =>
        obtain ⟨rfl, -⟩ := List.cons.inj has
        rw [hb]
        rfl
      | cons a' before =>
        obtain ⟨rfl, hrest⟩ := List.cons.inj has
        obtain ⟨⟨r, hr⟩, hbefore⟩ := List.forall_mem_cons.1 hbefore
        rw [hr, ih.2 ⟨before, b, after, hrest, hbefore, hb⟩]
        rfl

theorem exists_mem_of_mapM_eq_error {as : List α} {e : ε} (hm : as.mapM h = .error e) : ∃ a ∈ as, h a = .error e := by
  obtain ⟨before, a, after, rfl, -, ha⟩ := mapM_eq_error_iff.1 hm
  exact ⟨a, List.mem_append_cons_self, ha⟩

theorem exists_map_eq_map_ok {as : List α} (has : ∀ a ∈ as, ∃ b, h a = .ok b) :
    ∃ bs : List β, as.map h = bs.map .ok := by
  induction as with
  | nil => exact ⟨[], rfl⟩
  | cons a as ih =>
    obtain ⟨⟨b, hb⟩, has⟩ := List.forall_mem_cons.1 has
    obtain ⟨bs, hbs⟩ := ih has
    exact ⟨b :: bs, by rw [List.map_cons, List.map_cons, hb, hbs]⟩

/-- all results, when it is known of each computation when it has one and which -/
theorem map_eq_map_ok_iff {g : α → Except ε β} {P : α → Prop} {as : List α} {bs : List β}
    (hg : ∀ a ∈ as, ∀ b, g a = .ok b ↔ P a ∧ b = f a) : as.map g = bs.map .ok ↔ (∀ a ∈ as, P a) ∧ bs = as.map f := by
  induction as generalizing bs with
  | nil => simp [eq_comm (a := [])]
  | cons a as ih =>
    obtain ⟨ha, has⟩ := List.forall_mem_cons.1 hg
    cases bs with
    | nil => simp
    | cons b bs =>
      simp only [List.map_cons, List.cons.injEq, ha, ih has, List.forall_mem_cons]
      exact and_and_and_comm

end SimpleGrammar.Outcome
