/-
Lines of bytes and lines of characters.

In UTF-8 the characters of a line end are one byte each, and no other character has these bytes among its own. So
cutting the bytes of a text into lines and decoding each of them is the same as decoding the text and cutting it then,
and bytes that spell no text have a line that spells none.

- `lines_flatMap_of_marks`: lines are cut alike before and after spelling.
- `decode_eq_some_iff`: decoding undoes encoding.
- `decodeLines_of_decode`: the lines of a text that is decoded.
- `decode_dropReturn_eq_none_iff`: whether a line can be decoded does not depend on a return before its end.
- `decode_isSome_of_decodeLines`: a text is decoded if all its lines are.
- `decodeLines_encode_flatMap`, `exists_decodeLines_unreadable`: texts written as lines, and bytes up to the first
  line that is no text.
-/
import SimpleGrammar.Proofs.Text.Pieces
import SimpleGrammar.Text.Utf8

namespace SimpleGrammar.Text

/-! ## Cutting what is spelled -/

section

variable {α β : Type} [DecidableEq α] [DecidableEq β] {f : α → List β} {sep newline ret : α} {bsep bnewline bret : β}

omit [DecidableEq α] [DecidableEq β] in
/-- `c` is spelled by `b` alone, and nothing else has `b` in its spelling -/
structure Marks (f : α → List β) (c : α) (b : β) : Prop where
  spelled : f c = [b]
  alone : ∀ x, x ≠ c → b ∉ f x

/-- the pieces of what is spelled are the spellings of the pieces -/
theorem pieces_flatMap_of_marks (h : Marks f sep bsep) (xs : List α) :
    pieces bsep (xs.flatMap f) = (pieces sep xs).map (List.flatMap f) := by
  induction xs with
  | nil => rfl
  | cons x xs ih =>
    rw [List.flatMap_cons]
    by_cases hx : x = sep
    · rw [hx, h.spelled, List.singleton_append, pieces_cons_self, pieces_cons_self, ih]
      rfl
    · rw [pieces_append_of_not_mem (h.alone x hx), pieces_cons_of_ne hx, ih]
      cases pieces sep xs with
      | nil => rfl
      | cons p ps => rfl

theorem dropReturn_flatMap_of_marks (h : Marks f ret bret) (hf : ∀ x, f x ≠ []) (xs : List α) :
    dropReturn bret (xs.flatMap f) = (dropReturn ret xs).flatMap f := by
  rcases List.eq_nil_or_concat xs with rfl | ⟨init, x, hxs⟩
  · rfl
  · rw [List.concat_eq_append] at hxs
    subst hxs
    rw [List.flatMap_append, List.flatMap_singleton]
    by_cases hx : x = ret
    · simp [dropReturn, hx, h.spelled]
    · have hlast : (init.flatMap f ++ f x).getLast? ≠ some bret := by
        rw [List.getLast?_append, List.getLast?_eq_some_getLast (hf x), Option.some_or]
        intro heq
        apply h.alone x hx
        rw [← Option.some.inj heq]
        exact List.getLast_mem (hf x)
      rw [dropReturn, if_neg hlast, dropReturn, if_neg (by simpa using hx), List.flatMap_append, List.flatMap_singleton]

/-- **Lines are cut alike.** Where both characters of a line end are spelled by an element of their own, the lines of
what is spelled are the spellings of the lines. -/
theorem lines_flatMap_of_marks (hnewline : Marks f newline bnewline) (hret : Marks f ret bret) (hf : ∀ x, f x ≠ [])
    (xs : List α) : lines bnewline bret (xs.flatMap f) = (lines newline ret xs).map (List.flatMap f) := by
  have hcut := pieces_flatMap_of_marks hnewline xs
  have hdrop : ∀ p : List α, dropReturn bret (p.flatMap f) = (dropReturn ret p).flatMap f :=
    dropReturn_flatMap_of_marks hret hf
  have hempty : ∀ p : List α, p.flatMap f = [] ↔ p = [] := by
    intro p
    cases p with
    | nil => simp
    | cons x p => simp [hf x]
  simp only [lines, hcut, List.getLast_map, List.map_append, ← List.map_dropLast, List.map_map, hempty]
  congr 1
  · exact List.map_congr_left fun p _ => hdrop p
  · split <;> rfl

end

/-! ## UTF-8 -/

/-- the bytes that spell a text in UTF-8 -/
def encode (text : List Char) : List UInt8 := text.flatMap String.utf8EncodeChar

theorem encode_append (s t : List Char) : encode (s ++ t) = encode s ++ encode t := List.flatMap_append

theorem toByteArray_encode (text : List Char) : text.utf8Encode = ⟨(encode text).toArray⟩ := by
  apply ByteArray.ext
  apply Array.ext'
  rw [List.utf8Encode, List.toList_data_toByteArray]
  rfl

/-- **Decoding undoes encoding.** -/
theorem decode_eq_some_iff {bytes : List UInt8} {text : List Char} :
    decode bytes = some text ↔ encode text = bytes := by
  have hbytes : encode text = bytes ↔ text.utf8Encode = ⟨bytes.toArray⟩ := by
    rw [toByteArray_encode]
    simp
  rw [hbytes, decode, String.fromUTF8?, Option.map_eq_some_iff]
  constructor
  · rintro ⟨s, hs, rfl⟩
    split at hs
    · cases hs
      exact String.utf8Encode_toList
    · cases hs
  · intro h
    rw [← h]
    refine ⟨.ofList text, ?_, String.toList_ofList⟩
    rw [dif_pos ByteArray.isValidUTF8_utf8Encode]
    rfl

/-- a byte below 128 stands only in the spelling of its own character -/
theorem toNat_eq_of_mem_utf8EncodeChar {x : Char} {b : UInt8} (hb : b.toNat < 128) (h : b ∈ String.utf8EncodeChar x) :
    x.toNat = b.toNat := by
  have hval : x.toNat = x.val.toNat := rfl
  rw [String.utf8EncodeChar] at h
  -- in the spellings of two, three and four bytes each byte is 128 or more
  split at h
  · obtain rfl := List.mem_singleton.1 h
    rw [UInt8.toNat_ofNat'] at hb ⊢
    omega
  · split at h
    · simp only [List.mem_cons, List.not_mem_nil, or_false] at h
      rcases h with rfl | rfl <;> rw [UInt8.toNat_ofNat'] at hb <;> omega
    · split at h
      · simp only [List.mem_cons, List.not_mem_nil, or_false] at h
        rcases h with rfl | rfl | rfl <;> rw [UInt8.toNat_ofNat'] at hb <;> omega
      · simp only [List.mem_cons, List.not_mem_nil, or_false] at h
        rcases h with rfl | rfl | rfl | rfl <;> rw [UInt8.toNat_ofNat'] at hb <;> omega

/-- a byte below 128 is the whole spelling of its character -/
theorem marks_of_lt {c : Char} {b : UInt8} (hc : c.toNat = b.toNat) (hb : b.toNat < 128) :
    Marks String.utf8EncodeChar c b := by
  refine ⟨?_, fun x hx hmem => hx ?_⟩
  · have hval : c.val.toNat = b.toNat := hc
    rw [String.utf8EncodeChar, hval, if_pos (Nat.le_of_lt_succ hb), UInt8.ofNat_toNat]
  · have hnat : x.toNat = c.toNat := (toNat_eq_of_mem_utf8EncodeChar hb hmem).trans hc.symm
    exact Char.ext (UInt32.toNat_inj.1 hnat)

theorem marks_newline : Marks String.utf8EncodeChar '\n' 0x0a := marks_of_lt rfl (by decide)

theorem marks_return : Marks String.utf8EncodeChar '\r' 0x0d := marks_of_lt rfl (by decide)

/-- the lines of the bytes of a text spell the lines of the text -/
theorem lines_encode (text : List Char) :
    lines 0x0a 0x0d (encode text) = (lines '\n' '\r' text).map encode :=
  lines_flatMap_of_marks marks_newline marks_return (fun _ => String.utf8EncodeChar_ne_nil) text

/-- **Lines of a text.** Decoding line by line gives the lines of the decoded text. -/
theorem decodeLines_of_decode {bytes : List UInt8} {text : List Char} (h : decode bytes = some text) :
    decodeLines bytes = (lines '\n' '\r' text).map some := by
  obtain rfl := decode_eq_some_iff.1 h
  rw [decodeLines, lines_encode, List.map_map]
  exact List.map_congr_left fun line _ => decode_eq_some_iff.2 rfl

/-- a line that is decoded has no line end -/
theorem newline_not_mem_of_decode {line : List UInt8} {text : List Char} (h : decode line = some text)
    (hline : 0x0a ∉ line) : '\n' ∉ text := by
  obtain rfl := decode_eq_some_iff.1 h
  intro hmem
  apply hline
  rw [encode, List.mem_flatMap]
  refine ⟨'\n', hmem, ?_⟩
  rw [marks_newline.spelled]
  exact List.mem_singleton_self 0x0a

/-- a return before a line end has no part in whether the line can be decoded -/
theorem exists_encode_dropReturn_iff {line : List UInt8} :
    (∃ text, encode text = dropReturn 0x0d line) ↔ ∃ text, encode text = line := by
  constructor
  · rintro ⟨text, htext⟩
    rw [dropReturn] at htext
    split at htext
    · next hlast =>
      -- the return that was dropped is put back
      obtain ⟨init, rfl⟩ := List.getLast?_eq_some_iff.1 hlast
      rw [List.dropLast_concat] at htext
      refine ⟨text ++ ['\r'], ?_⟩
      rw [encode_append, htext]
      rfl
    · exact ⟨text, htext⟩
  · rintro ⟨text, rfl⟩
    have hdrop := dropReturn_flatMap_of_marks marks_return (fun _ => String.utf8EncodeChar_ne_nil) text
    exact ⟨dropReturn '\r' text, hdrop.symm⟩

theorem decode_eq_none_iff {bytes : List UInt8} : decode bytes = none ↔ ¬ ∃ text, encode text = bytes := by
  rw [Option.eq_none_iff_forall_ne_some, not_exists]
  exact forall_congr' fun text => not_congr decode_eq_some_iff

theorem decode_dropReturn_eq_none_iff {line : List UInt8} :
    decode (dropReturn 0x0d line) = none ↔ decode line = none := by
  rw [decode_eq_none_iff, decode_eq_none_iff, exists_encode_dropReturn_iff]

/-- what is spelled with line ends between is spelled -/
theorem exists_encode_intercalate {parts : List (List UInt8)} (h : ∀ p ∈ parts, ∃ text, encode text = p) :
    ∃ text, encode text = [0x0a].intercalate parts := by
  induction parts with
  | nil => exact ⟨[], rfl⟩
  | cons p parts ih =>
    obtain ⟨⟨s, rfl⟩, hparts⟩ := List.forall_mem_cons.1 h
    cases parts with
    | nil => exact ⟨s, by rw [List.intercalate_singleton]⟩
    | cons q parts =>
      obtain ⟨t, ht⟩ := ih hparts
      refine ⟨s ++ ['\n'] ++ t, ?_⟩
      rw [encode_append, encode_append, ht, List.intercalate_cons_cons]
      rfl

/-- **Unreadable lines.** Bytes are decoded if each of their lines is. -/
theorem decode_isSome_of_decodeLines {bytes : List UInt8} (h : none ∉ decodeLines bytes) :
    ∃ text, decode bytes = some text := by
  have hline : ∀ line ∈ lines 0x0a 0x0d bytes, ∃ text, encode text = line := by
    intro line hline
    cases htext : decode line with
    | none => exact absurd (List.mem_map.2 ⟨line, hline, htext⟩) h
    | some text => exact ⟨text, decode_eq_some_iff.1 htext⟩
  have hpiece : ∀ p ∈ pieces 0x0a bytes, ∃ text, encode text = p := by
    intro p hp
    rw [← List.dropLast_concat_getLast (pieces_ne_nil 0x0a bytes), List.mem_append, List.mem_singleton] at hp
    rcases hp with hp | hp
    · exact exists_encode_dropReturn_iff.1 (hline (dropReturn 0x0d p) (List.mem_append_left _ (List.mem_map_of_mem hp)))
    · by_cases hempty : p = []
      · exact ⟨[], hempty.symm⟩
      · apply hline p
        apply List.mem_append_right
        rw [← hp, if_neg hempty]
        exact List.mem_singleton_self p
  obtain ⟨text, htext⟩ := exists_encode_intercalate hpiece
  rw [intercalate_pieces] at htext
  exact ⟨text, decode_eq_some_iff.2 htext⟩

/-! ## Lines one after the other -/

variable {before : List (List UInt8)} {bad tail : List UInt8} {texts : List (List Char)}

/-- **Texts written as lines.** Each with a line end after it, they are read back as they are. -/
theorem decodeLines_encode_flatMap (hnewline : ∀ text ∈ texts, '\n' ∉ text)
    (hreturn : ∀ text ∈ texts, text.getLast? ≠ some '\r') :
    decodeLines (encode (texts.flatMap (· ++ ['\n']))) = texts.map some := by
  rw [decodeLines_of_decode (decode_eq_some_iff.2 rfl), lines_flatMap hnewline hreturn]

theorem decodeLines_flatMap_append (h : ∀ line ∈ before, 0x0a ∉ line) (rest : List UInt8) :
    decodeLines (before.flatMap (· ++ [0x0a]) ++ rest) =
      (before.map fun line => decode (dropReturn 0x0d line)) ++ decodeLines rest := by
  rw [decodeLines, lines_flatMap_append h, List.map_append, List.map_map]
  rfl

/-- a first line that is no text, whether it is ended or not -/
theorem exists_decodeLines_eq_none_cons (hline : 0x0a ∉ bad) (hbad : decode bad = none)
    (htail : tail = [] ∨ tail.head? = some 0x0a) : ∃ later, decodeLines (bad ++ tail) = none :: later := by
  rcases htail with rfl | hhead
  · have hne : bad ≠ [] := by
      rintro rfl
      rw [decode_eq_some_iff.2 (show encode [] = [] from rfl)] at hbad
      cases hbad
    refine ⟨[], ?_⟩
    rw [List.append_nil, decodeLines, lines_of_not_mem hline hne, List.map_singleton, hbad]
  · obtain ⟨rest, rfl⟩ := List.head?_eq_some_iff.1 hhead
    refine ⟨decodeLines rest, ?_⟩
    have hcut := decodeLines_flatMap_append (List.forall_mem_singleton.2 hline) rest
    rw [List.flatMap_singleton, List.map_singleton, decode_dropReturn_eq_none_iff.2 hbad] at hcut
    rw [List.append_cons]
    exact hcut

/-- **The first unreadable line.** The lines before it are read as if they were all. -/
theorem exists_decodeLines_unreadable (hbefore : ∀ line ∈ before, 0x0a ∉ line ∧ decode line ≠ none) (hline : 0x0a ∉ bad)
    (hbad : decode bad = none) (htail : tail = [] ∨ tail.head? = some 0x0a) :
    none ∉ decodeLines (before.flatMap (· ++ [0x0a])) ∧
      ∃ later, decodeLines (before.flatMap (· ++ [0x0a]) ++ bad ++ tail) =
        decodeLines (before.flatMap (· ++ [0x0a])) ++ none :: later := by
  have hlines : ∀ line ∈ before, 0x0a ∉ line := fun line hmem => (hbefore line hmem).1
  have hfirst : decodeLines (before.flatMap (· ++ [0x0a])) = before.map fun line => decode (dropReturn 0x0d line) := by
    have hcut := decodeLines_flatMap_append hlines []
    rw [List.append_nil] at hcut
    rw [hcut]
    exact List.append_nil _
  obtain ⟨later, hlater⟩ := exists_decodeLines_eq_none_cons hline hbad htail
  constructor
  · rw [hfirst, List.mem_map]
    rintro ⟨line, hmem, hnone⟩
    exact (hbefore line hmem).2 (decode_dropReturn_eq_none_iff.1 hnone)
  · refine ⟨later, ?_⟩
    rw [List.append_assoc, decodeLines_flatMap_append hlines, hlater, hfirst]

end SimpleGrammar.Text
