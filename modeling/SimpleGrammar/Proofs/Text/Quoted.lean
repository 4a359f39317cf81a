/-
Quoted text tells what was quoted.

A character is written in quotes in one of three ways, none of which begins like another one of another character or
like the closing quotation mark. So where a line goes on after a quoted text, the text and what comes after it can
still be told, and since a line feed is never written as itself a quoted text stays on its line.

- `toDigits_inj`: different numbers have different hexadecimal digits.
- `Quoting`, `quoting_quoteChar`: the three ways.
- `eq_of_quoteChar_isPrefix`: no character is written like the beginning of another.
- `quote_append_inj`: the quoted text and the rest of its line.
- `newline_not_mem_quote`: a quoted text has no line end.
-/
import SimpleGrammar.Text.Pieces
import SimpleGrammar.Text.Quoted

namespace SimpleGrammar.Text

/-! ## Hexadecimal digits -/

theorem digitChar_inj : ∀ m < 16, ∀ n < 16, m.digitChar = n.digitChar → m = n := by decide

/-- a number is told by its digits, by the last one and those before it -/
theorem toDigits_inj {m n : Nat} (h : Nat.toDigits 16 m = Nat.toDigits 16 n) : m = n := by
  induction m using Nat.strongRecOn generalizing n with
  | ind m ih =>
    rw [Nat.toDigits_eq_if (by decide), Nat.toDigits_eq_if (n := n) (by decide)] at h
    split at h
    · next hm =>
      split at h
      · next hn => exact digitChar_inj m hm n hn (List.singleton_inj.1 h)
      · rw [← List.nil_append [m.digitChar]] at h
        exact absurd (List.append_inj_left' h rfl).symm Nat.toDigits_ne_nil
    · next hm =>
      split at h
      · rw [← List.nil_append [n.digitChar]] at h
        exact absurd (List.append_inj_left' h rfl) Nat.toDigits_ne_nil
      · obtain ⟨hinit, hlast⟩ := List.append_inj' h rfl
        have hdiv := ih (m / 16) (by omega) hinit
        have hmod :=
          digitChar_inj _ (Nat.mod_lt m (by decide)) _ (Nat.mod_lt n (by decide)) (List.singleton_inj.1 hlast)
        omega

/-- what is no digit is not among the digits of a number -/
theorem not_mem_toDigits {c : Char} (hc : ∀ k : Nat, k.digitChar ≠ c) (n : Nat) : c ∉ Nat.toDigits 16 n := by
  induction n using Nat.strongRecOn with
  | ind n ih =>
    rw [Nat.toDigits_eq_if (by decide)]
    split
    · exact fun hmem => hc n (List.mem_singleton.1 hmem).symm
    · rw [List.mem_append, List.mem_singleton]
      rintro (hmem | heq)
      · exact ih (n / 16) (by omega) hmem
      · exact hc _ heq.symm

/-! ## Characters -/

/-- the characters that have an escape of their own, each with the character after the backslash -/
def namedEscapes : List (Char × Char) :=
  [('\x00', '0'), ('\t', 't'), ('\r', 'r'), ('\n', 'n'), ('"', '"'), ('\\', '\\')]

/-- the ways in which a character may be written in quotes -/
inductive Quoting (c : Char) : List Char → Prop
  | named {e : Char} (h : (c, e) ∈ namedEscapes) : Quoting c ['\\', e]
  | codePoint : Quoting c (codePointEscape c)
  | plain (hmark : c ≠ '"') (hslash : c ≠ '\\') (hnewline : c ≠ '\n') : Quoting c [c]

theorem quoting_quoteChar (c : Char) : Quoting c (quoteChar c) := by
  unfold quoteChar
  split
  · next h => exact .named (by simp [h, namedEscapes])
  split
  · next h => exact .named (by simp [h, namedEscapes])
  split
  · next h => exact .named (by simp [h, namedEscapes])
  split
  · next h => exact .named (by simp [h, namedEscapes])
  split
  · next h => exact .named (by simp [h, namedEscapes])
  split
  · next h => exact .named (by simp [h, namedEscapes])
  split
  · exact .codePoint
  · next hnewline hmark hslash _ => exact .plain hmark hslash hnewline

variable {c d : Char} {xs ys s t : List Char}

/-- the escapes by code point end where their digits end -/
theorem eq_of_codePointEscape_isPrefix (h : codePointEscape c <+: codePointEscape d) : c = d := by
  obtain ⟨rest, h⟩ := h
  have hbrace : ∀ n, '\x7d' ∉ Nat.toDigits 16 n := not_mem_toDigits fun k => Nat.digitChar_ne _ (by decide)
  have hdigits : Nat.toDigits 16 c.toNat ++ '\x7d' :: rest = Nat.toDigits 16 d.toNat ++ '\x7d' :: [] := by
    simpa [codePointEscape] using h
  have hcut := congrArg (pieces '\x7d') hdigits
  rw [pieces_append_cons (hbrace _), pieces_append_cons (hbrace _)] at hcut
  have hnat := toDigits_inj (List.cons.inj hcut).1
  exact Char.ext (UInt32.toNat_inj.1 hnat)

/-- **No way begins like another.** If one character is written like the beginning of another they are the same. -/
theorem Quoting.eq_of_isPrefix (hc : Quoting c xs) (hd : Quoting d ys) (h : xs <+: ys) : c = d := by
  have hnames : ∀ p ∈ namedEscapes, p.2 ≠ 'u' ∧ ∀ q ∈ namedEscapes, p.2 = q.2 → p.1 = q.1 := by decide
  cases hc with
  | named hc =>
    cases hd with
    | named hd =>
      rw [List.cons_prefix_cons, List.cons_prefix_cons] at h
      exact (hnames _ hc).2 _ hd h.2.1
    | codePoint =>
      have hu := (List.cons_prefix_cons.1 (List.cons_prefix_cons.1 h).2).1
      exact absurd hu (hnames _ hc).1
    | plain hmark hslash hnewline => exact absurd (List.cons_prefix_cons.1 h).1.symm hslash
  | codePoint =>
    cases hd with
    | named hd =>
      have hu := (List.cons_prefix_cons.1 (List.cons_prefix_cons.1 h).2).1
      exact absurd hu.symm (hnames _ hd).1
    | codePoint => exact eq_of_codePointEscape_isPrefix h
    | plain hmark hslash hnewline => exact absurd (List.cons_prefix_cons.1 h).1.symm hslash
  | plain hmark hslash hnewline =>
    cases hd with
    | named hd => exact absurd (List.cons_prefix_cons.1 h).1 hslash
    | codePoint => exact absurd (List.cons_prefix_cons.1 h).1 hslash
    | plain => exact (List.cons_prefix_cons.1 h).1

/-- no character is written like the closing quotation mark -/
theorem Quoting.exists_cons (h : Quoting c xs) : ∃ x rest, xs = x :: rest ∧ x ≠ '"' := by
  cases h with
  | named h => exact ⟨_, _, rfl, by decide⟩
  | codePoint => exact ⟨_, _, rfl, by decide⟩
  | plain hmark hslash hnewline => exact ⟨_, _, rfl, hmark⟩

theorem Quoting.newline_not_mem (h : Quoting c xs) : '\n' ∉ xs := by
  cases h with
  | named h =>
    have hnames : ∀ p ∈ namedEscapes, '\n' ∉ ['\\', p.2] := by decide
    exact hnames _ h
  | codePoint =>
    have hdigits := not_mem_toDigits (c := '\n') (fun k => Nat.digitChar_ne _ (by decide)) c.toNat
    simp [codePointEscape, hdigits]
  | plain hmark hslash hnewline => exact fun hmem => hnewline (List.mem_singleton.1 hmem).symm

theorem eq_of_quoteChar_isPrefix (h : quoteChar c <+: quoteChar d) : c = d :=
  (quoting_quoteChar c).eq_of_isPrefix (quoting_quoteChar d) h

/-! ## Texts -/

/-- the text is told up to the closing quotation mark, and then what comes after it -/
theorem flatMap_quoteChar_append_inj (h : s.flatMap quoteChar ++ '"' :: xs = t.flatMap quoteChar ++ '"' :: ys) :
    s = t ∧ xs = ys := by
  have hclosed : ∀ (c : Char) (rest more : List Char), '"' :: more ≠ quoteChar c ++ rest := by
    intro c rest more heq
    obtain ⟨x, tail, hx, hmark⟩ := (quoting_quoteChar c).exists_cons
    rw [hx] at heq
    exact hmark (List.cons.inj heq).1.symm
  induction s generalizing t with
  | nil =>
    cases t with
    | nil => exact ⟨rfl, (List.cons.inj h).2⟩
    | cons d t =>
      rw [List.flatMap_cons, List.append_assoc] at h
      exact absurd h (hclosed d _ _)
  | cons c s ih =>
    rw [List.flatMap_cons, List.append_assoc] at h
    cases t with
    | nil => exact absurd h.symm (hclosed c _ _)
    | cons d t =>
      rw [List.flatMap_cons, List.append_assoc] at h
      -- both begin the same line, so one of them begins the other
      have hcd : c = d := by
        have hc := List.prefix_append (quoteChar c) (s.flatMap quoteChar ++ '"' :: xs)
        rw [h] at hc
        rcases List.prefix_or_prefix_of_prefix hc (List.prefix_append _ _) with hbegins | hbegins
        · exact eq_of_quoteChar_isPrefix hbegins
        · exact (eq_of_quoteChar_isPrefix hbegins).symm
      subst hcd
      obtain ⟨rfl, hrest⟩ := ih (List.append_cancel_left h)
      exact ⟨rfl, hrest⟩

/-- **Quoted text read back.** A line that begins with a quoted text tells the text and what comes after it. -/
theorem quote_append_inj (h : quote s ++ xs = quote t ++ ys) : s = t ∧ xs = ys := by
  simp only [quote, List.cons_append, List.append_assoc, List.nil_append, List.cons.injEq, true_and] at h
  exact flatMap_quoteChar_append_inj h

/-- **One line.** A quoted text has no line end, whatever was quoted. -/
theorem newline_not_mem_quote (text : List Char) : '\n' ∉ quote text := by
  have hchars : '\n' ∉ text.flatMap quoteChar := by
    rw [List.mem_flatMap]
    rintro ⟨c, -, hc⟩
    exact (quoting_quoteChar c).newline_not_mem hc
  simp [quote, hchars]

end SimpleGrammar.Text
