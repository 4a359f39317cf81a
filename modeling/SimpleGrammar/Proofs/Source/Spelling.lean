/-
Where the tokens of a line are written.

The tokens of a line spell the line out, but for its white space: from left to right each of them is written at a
place of its own. An arrow is written wherever a dash is directly followed by `>`, so every other dash and every other
`>` is a symbol by itself.

- `flatMap_spelling_tokens`: the tokens spelled one after the other.
- `TokenAt`, `listed_tokens`: which token is written at a place, and that the tokens are those written at the places
  in order.
- `tokens_lossless`: the spelling, the arrows, and the dashes and `>` that are in none.
-/
import SimpleGrammar.Proofs.Source.Faults
import SimpleGrammar.Proofs.Source.Tokens

namespace SimpleGrammar

namespace Source

variable {c d : Char} {text rest : List Char} {i : Nat} {t : Token}

/-- **Tokens spelled.** They give the characters of the line other than white space. -/
theorem flatMap_spelling_tokens (text : List Char) :
    (tokens text).flatMap Token.spelling = text.filter (!Text.isBlank ·) := by
  fun_induction tokens text with
  | case1 => rfl
  | case2 rest ih =>
    rw [List.flatMap_cons, ih, List.filter_cons_of_pos (by decide), List.filter_cons_of_pos (by decide)]
    rfl
  | case3 c rest hne hc ih => rw [ih, List.filter_cons_of_neg (by simp [hc])]
  | case4 c rest hne hc ih =>
    rw [List.flatMap_cons, spelling_ofChar, ih, List.filter_cons_of_pos (by simp [hc]), List.singleton_append]

/-! ## Places -/

/-- after the first `i` characters of the line stand a dash and `>` -/
def ArrowAt (text : List Char) (i : Nat) : Prop := text[i]? = some '-' ∧ text[i + 1]? = some '>'

/-- the token written after the first `i` characters of the line: an arrow, or any other character by itself unless it
is white space or the second half of an arrow -/
def TokenAt (text : List Char) (i : Nat) (t : Token) : Prop :=
  ArrowAt text i ∧ t = .arrow ∨
    ¬ ArrowAt text i ∧ (∀ j, j + 1 = i → ¬ ArrowAt text j) ∧
      ∃ c, text[i]? = some c ∧ Text.isBlank c = false ∧ t = .ofChar c

theorem arrowAt_cons_zero_iff : ArrowAt (c :: rest) 0 ↔ c = '-' ∧ rest.head? = some '>' := by
  simp [ArrowAt, List.head?_eq_getElem?]

theorem arrowAt_cons_succ_iff : ArrowAt (c :: rest) (i + 1) ↔ ArrowAt rest i := Iff.rfl

theorem tokenAt_cons_zero_iff (h : ¬ ArrowAt (c :: rest) 0) :
    TokenAt (c :: rest) 0 t ↔ Text.isBlank c = false ∧ t = .ofChar c := by
  simp [TokenAt, h]

/-- a character in front moves the tokens by one place, if no arrow begins with it -/
theorem tokenAt_cons_succ_iff (h : i = 0 → ¬ ArrowAt (c :: rest) 0) :
    TokenAt (c :: rest) (i + 1) t ↔ TokenAt rest i t := by
  have hbefore : (∀ j, j + 1 = i + 1 → ¬ ArrowAt (c :: rest) j) ↔ ∀ j, j + 1 = i → ¬ ArrowAt rest j := by
    cases i with
    | zero => simpa using h rfl
    | succ i => simp [arrowAt_cons_succ_iff]
  rw [TokenAt, TokenAt, hbefore]
  rfl

theorem not_arrowAt_cons_zero (h : ∀ rest', c = '-' → rest = '>' :: rest' → False) : ¬ ArrowAt (c :: rest) 0 := by
  rw [arrowAt_cons_zero_iff]
  rintro ⟨hc, hhead⟩
  obtain ⟨rest', hrest⟩ := List.head?_eq_some_iff.1 hhead
  exact h rest' hc hrest

/-- an arrow in front is a token, and moves the other tokens by two places -/
theorem tokenAt_arrow_cons_iff :
    TokenAt ('-' :: '>' :: rest) i t ↔ i = 0 ∧ t = .arrow ∨ ∃ m, m + 2 = i ∧ TokenAt rest m t := by
  have hfirst : ArrowAt ('-' :: '>' :: rest) 0 := ⟨rfl, rfl⟩
  have hsecond : ¬ ArrowAt ('>' :: rest) 0 := by simp [arrowAt_cons_zero_iff]
  match i with
  | 0 => simp [TokenAt, hfirst]
  | 1 =>
    -- this is the second half of the arrow
    have hnone : ¬ TokenAt ('-' :: '>' :: rest) 1 t := by
      rintro (⟨harrow, -⟩ | ⟨-, hbefore, -⟩)
      · exact hsecond harrow
      · exact hbefore 0 rfl hfirst
    simp [hnone]
  | i + 2 =>
    rw [tokenAt_cons_succ_iff (by simp), tokenAt_cons_succ_iff fun _ => hsecond]
    simp

/-- **Tokens by place.** The tokens of a line are those written at its places, from left to right. -/
theorem listed_tokens (text : List Char) : Listed (TokenAt text) (tokens text) := by
  fun_induction tokens text with
  | case1 => exact ⟨[], rfl, .nil, by simp [TokenAt, ArrowAt]⟩
  | case2 rest ih =>
    refine ((ih.shift 2).cons (m := 0) ?_).congr fun i t => tokenAt_arrow_cons_iff.symm
    rintro n e ⟨m, rfl, -⟩
    omega
  | case3 c rest hne hc ih =>
    have hstart := not_arrowAt_cons_zero hne
    refine (ih.shift 1).congr fun i t => ?_
    cases i with
    | zero => simp [tokenAt_cons_zero_iff hstart, hc]
    | succ i => simp [tokenAt_cons_succ_iff fun _ => hstart]
  | case4 c rest hne hc ih =>
    have hstart := not_arrowAt_cons_zero hne
    refine ((ih.shift 1).cons (m := 0) ?_).congr fun i t => ?_
    · rintro n e ⟨m, rfl, -⟩
      omega
    · cases i with
      | zero => simp [tokenAt_cons_zero_iff hstart, hc]
      | succ i => simp [tokenAt_cons_succ_iff fun _ => hstart]

/-! ## Spellings at places -/

/-- a token is spelled where it is written -/
theorem TokenAt.spelling_isPrefix (h : TokenAt text i t) : t.spelling <+: text.drop i := by
  obtain ⟨⟨hdash, hangle⟩, rfl⟩ | ⟨-, -, c, hc, -, rfl⟩ := h
  · obtain ⟨hi, hdash⟩ := List.getElem?_eq_some_iff.1 hdash
    obtain ⟨hi', hangle⟩ := List.getElem?_eq_some_iff.1 hangle
    rw [List.drop_eq_getElem_cons hi, List.drop_eq_getElem_cons hi', hdash, hangle]
    exact List.prefix_append ['-', '>'] _
  · obtain ⟨hi, hc⟩ := List.getElem?_eq_some_iff.1 hc
    rw [List.drop_eq_getElem_cons hi, hc, spelling_ofChar]
    exact List.prefix_append [c] _

theorem tokenAt_arrow_iff : TokenAt text i .arrow ↔ ArrowAt text i := by
  simp [TokenAt, (ofChar_ne_arrow _).symm]

theorem ofChar_eq_symbol_iff (hc : Plain c) : .symbol c = Token.ofChar d ↔ d = c := by
  constructor
  · intro h
    have hspelling := congrArg Token.spelling h
    rw [spelling_ofChar] at hspelling
    exact (List.singleton_inj.1 hspelling).symm
  · rintro rfl
    exact (ofChar_of_plain hc).symm

theorem tokenAt_symbol_iff (hc : Plain c) :
    TokenAt text i (.symbol c) ↔ text[i]? = some c ∧ ¬ ArrowAt text i ∧ ∀ j, j + 1 = i → ¬ ArrowAt text j := by
  simp only [TokenAt, ofChar_eq_symbol_iff hc, reduceCtorEq, and_false, false_or]
  constructor
  · rintro ⟨hstart, hend, d, hd, -, rfl⟩
    exact ⟨hd, hstart, hend⟩
  · rintro ⟨hi, hstart, hend⟩
    exact ⟨hstart, hend, c, hi, hc.1, rfl⟩

/-- **Nothing is lost.** The tokens of a line spell the line without its white space. They are written in it from left
to right, each at a place of its own: the arrows where a dash is directly followed by `>`, at each such place one, and
as a symbol by itself each dash that is followed by something else or nothing, and each `>` with something else or
nothing before it. -/
theorem tokens_lossless (text : List Char) :
    (tokens text).flatMap Token.spelling = text.filter (!Text.isBlank ·) ∧
    ∃ found : List (Nat × Token), found.map Prod.snd = tokens text ∧ found.Pairwise (fun a b => a.1 < b.1) ∧
      (∀ x ∈ found, x.2.spelling <+: text.drop x.1) ∧
      (∀ i, (i, .arrow) ∈ found ↔ text[i]? = some '-' ∧ text[i + 1]? = some '>') ∧
      (∀ i, (i, .symbol '-') ∈ found ↔ text[i]? = some '-' ∧ text[i + 1]? ≠ some '>') ∧
      ∀ i, (i, .symbol '>') ∈ found ↔ text[i]? = some '>' ∧ ∀ j, j + 1 = i → text[j]? ≠ some '-' := by
  obtain ⟨found, hmap, hlt, hfound⟩ := listed_tokens text
  refine ⟨flatMap_spelling_tokens text, found, hmap, hlt, ?_, ?_, ?_, ?_⟩
  · intro x hx
    exact ((hfound x.1 x.2).1 hx).spelling_isPrefix
  · intro i
    rw [hfound, tokenAt_arrow_iff]
    rfl
  · intro i
    rw [hfound, tokenAt_symbol_iff (by decide)]
    refine and_congr_right fun hdash => ?_
    constructor
    · rintro ⟨hstart, -⟩ hangle
      exact hstart ⟨hdash, hangle⟩
    · intro hangle
      refine ⟨fun harrow => hangle harrow.2, ?_⟩
      rintro j rfl ⟨-, hangle'⟩
      rw [hdash] at hangle'
      cases hangle'
  · intro i
    rw [hfound, tokenAt_symbol_iff (by decide)]
    refine and_congr_right fun hangle => ?_
    constructor
    · rintro ⟨-, hend⟩ j rfl hdash
      exact hend j rfl ⟨hdash, hangle⟩
    · intro hbefore
      refine ⟨?_, fun j hj harrow => hbefore j hj harrow.1⟩
      rintro ⟨hdash, -⟩
      rw [hangle] at hdash
      cases hdash

-- of three dashes in a row only the last one meets the `>`, and white space keeps the other pair apart
example : tokens "--->> - >".toList =
    [.symbol '-', .symbol '-', .arrow, .symbol '>', .symbol '-', .symbol '>'] := by decide

end Source

end SimpleGrammar
