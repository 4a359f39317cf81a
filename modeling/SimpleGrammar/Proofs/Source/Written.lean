/-
Written rule lines, read back.

An alternative is written without spaces, so two terminals of it may make an arrow. This is the only way in which
symbols that text can state are read as something else.

- `isRuleText_spell`, `ofText_spell`: an alternative without such terminals is written as a rule text, which denotes it.
- `alternativesOf_tokens_spell_iff`: they are read as they are exactly when each of them is writable.
- `read_writtenLine_iff`: the same of rule lines.
-/
import SimpleGrammar.Grammar.Written
import SimpleGrammar.Proofs.Source.RuleText

namespace SimpleGrammar

/-- an alternative that is read as it is when written -/
structure Rhs.Writable (r : Rhs) : Prop where
  readable : r.Readable
  /-- no two symbols make an arrow -/
  apart : ¬ [.terminal '-', .terminal '>'] <:+: r

namespace Source

variable {r : Rhs} {alts : Alternatives}

/-! ## One alternative -/

/-- the symbols are those of their characters -/
theorem map_ofChar_map_char (h : r.Readable) : (r.map Symbol.char).map Symbol.ofChar = r := by
  rw [List.map_map]
  exact (List.map_congr_left fun x hx => (h x hx).1.symm).trans (List.map_id' r)

theorem infix_map_char_iff (h : r.Readable) :
    ['-', '>'] <:+: r.map Symbol.char ↔ [.terminal '-', .terminal '>'] <:+: r := by
  constructor
  · intro hinfix
    have hr := hinfix.map Symbol.ofChar
    rw [map_ofChar_map_char h] at hr
    exact hr
  · intro hinfix
    exact hinfix.map Symbol.char

theorem plain_of_mem_map_char (h : r.Readable) : ∀ c ∈ r.map Symbol.char, Plain c := by
  intro c hc
  obtain ⟨x, hx, rfl⟩ := List.mem_map.1 hc
  exact (h x hx).2

/-- **An alternative written.** It is a rule text, and denotes the alternative. -/
theorem isRuleText_spell (h : r.Writable) : IsRuleText r.spell := by
  rw [Rhs.spell]
  split
  · exact .inl rfl
  · exact .inr ⟨plain_of_mem_map_char h.readable, mt (infix_map_char_iff h.readable).1 h.apart⟩

theorem ofText_spell (h : r.Readable) : Rhs.ofText r.spell = r := by
  rw [Rhs.spell]
  split
  · next hr => exact hr.symm
  · have hne : r.map Symbol.char ≠ [epsilon] := by
      intro heps
      have hplain := plain_of_mem_map_char h epsilon (by rw [heps]; exact List.mem_cons_self)
      exact hplain.2.2 rfl
    rw [Rhs.ofText, if_neg hne, map_ofChar_map_char h]

theorem isBlank_of_mem_spell (h : r.Readable) {c : Char} (hc : c ∈ r.spell) : Text.isBlank c = false := by
  rw [Rhs.spell] at hc
  split at hc
  · rw [List.mem_singleton.1 hc]
    decide
  · exact (plain_of_mem_map_char h c hc).1

theorem spell_ne_nil (r : Rhs) : r.spell ≠ [] := by
  rw [Rhs.spell]
  split
  · exact List.cons_ne_nil _ _
  · next hr => exact mt List.map_eq_nil_iff.1 hr

/-! ## All alternatives -/

/-- the characters of an alternative stand in those of all -/
theorem infix_spell_of_mem (hr : r ∈ alts) : r.spell <:+: alts.spell :=
  Text.infix_intercalate (List.mem_map_of_mem hr)

/-- written alternatives hold no arrow when each of them is writable -/
theorem writable_of_arrow_not_mem (hreadable : ∀ r ∈ alts, r.Readable) (h : .arrow ∉ tokens alts.spell) :
    ∀ r ∈ alts, r.Writable := by
  intro r hr
  refine ⟨hreadable r hr, fun hinfix => ?_⟩
  have hne : r ≠ [] := by
    rintro rfl
    simp at hinfix
  have hspell : ['-', '>'] <:+: r.spell := by
    rw [Rhs.spell, if_neg hne]
    exact (infix_map_char_iff (hreadable r hr)).2 hinfix
  exact h (arrow_mem_tokens_iff.2 (hspell.trans (infix_spell_of_mem hr)))

theorem alternativesOf_tokens_spell (h : ∀ r ∈ alts, r.Writable) : alternativesOf (tokens alts.spell) = .ok alts := by
  have hread : alternativesOf (tokens alts.spell) = .ok ((alts.map Rhs.spell).map Rhs.ofText) := by
    refine alternativesOf_tokens_intercalate (List.forall_mem_map.2 fun r hr => isRuleText_spell (h r hr))
      fun hempty => ?_
    obtain ⟨r, -, hr⟩ := List.map_eq_singleton_iff.1 hempty
    exact spell_ne_nil r hr
  rw [hread, List.map_map]
  exact congrArg Except.ok ((List.map_congr_left fun r hr => ofText_spell (h r hr).readable).trans (List.map_id' alts))

/-- **Alternatives read back.** They are read when each of them is writable, and then as they are. -/
theorem alternativesOf_tokens_spell_iff (hreadable : ∀ r ∈ alts, r.Readable) {read : Alternatives} :
    alternativesOf (tokens alts.spell) = .ok read ↔ (∀ r ∈ alts, r.Writable) ∧ read = alts := by
  constructor
  · intro h
    have hwritable := writable_of_arrow_not_mem hreadable (arrow_not_mem_of_alternativesOf h)
    rw [alternativesOf_tokens_spell hwritable] at h
    cases h
    exact ⟨hwritable, rfl⟩
  · rintro ⟨hwritable, rfl⟩
    exact alternativesOf_tokens_spell hwritable

/-! ## Rule lines -/

/-- the rule line of `n` and its alternatives, without a line end -/
def writtenLine (n : Char) (alts : Alternatives) : List Char := n :: ' ' :: '-' :: '>' :: ' ' :: alts.spell

theorem writtenLine_eq (n : Char) (alts : Alternatives) : writtenLine n alts = lineOf n (alts.map Rhs.spell) := rfl

/-- **A rule line read back.** It is read when each alternative is writable, and then as what was written. -/
theorem read_writtenLine_iff {n : Char} (h : Text.isUppercase n = true) (hreadable : ∀ r ∈ alts, r.Readable)
    {rule : RuleLine} :
    RuleLine.read (writtenLine n alts) = .ok rule ↔ (∀ r ∈ alts, r.Writable) ∧ rule = ⟨n, alts⟩ := by
  obtain ⟨m, read⟩ := rule
  rw [read_eq_ok_iff, writtenLine_eq, tokens_lineOf h]
  constructor
  · rintro ⟨body, hts, -, hbody⟩
    cases hts
    obtain ⟨hwritable, rfl⟩ := (alternativesOf_tokens_spell_iff hreadable).1 hbody
    exact ⟨hwritable, rfl⟩
  · rintro ⟨hwritable, heq⟩
    cases heq
    exact ⟨_, rfl, h, alternativesOf_tokens_spell hwritable⟩

end Source

end SimpleGrammar
