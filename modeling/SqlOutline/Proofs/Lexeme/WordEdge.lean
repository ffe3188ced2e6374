import SqlOutline.Proofs.Lexeme.Cut
import SqlOutline.Proofs.Lexeme.Ending
import SqlOutline.Proofs.Text.Classes

/-!
# Edges of words

A piece that ends with a word character before a letter would have taken the letter too.

## Main definitions

* `Apart` — no word goes on from the first text to the second.

## Main results

* `Run.exists_append_apart` — what a run reads is apart from what it leaves.
* `exists_split_of_word` — no word character stands before or behind a word.
-/

namespace SqlOutline.Scan

open List Text

/-- If the first text ends with a word character, the second does not start with a letter. -/
def Apart (x y : Text) : Prop :=
  x.getLast?.any isWordChar → y.head?.any isAsciiAlpha = false

/-! ## Ends of pieces -/

lemma apart_of_getLast? {x : Text} {c : Char} (hx : x.getLast? = some c) (hc : isWordChar c = false)
    (y : Text) : Apart x y := by
  intro h
  rw [hx, Option.any_some, hc] at h
  cases h

lemma Apart.cons {x y : Text} (h : Apart x y) (hx : x ≠ []) (c : Char) : Apart (c :: x) y := by
  obtain ⟨d, x, rfl⟩ := exists_cons_of_ne_nil hx
  rwa [Apart, getLast?_cons_cons]

lemma Apart.append_left {x y : Text} (h : Apart x y) (hx : x ≠ []) (w : Text) :
    Apart (w ++ x) y := by
  rwa [Apart, getLast?_append_of_ne_nil _ hx]

lemma apart_of_head? {y : Text} (h : y.head?.any isWordChar = false) (x : Text) : Apart x y := by
  intro _
  cases y with
  | nil => rfl
  | cons c y =>
    cases hc : isAsciiAlpha c with
    | false => exact hc
    | true =>
      rw [head?_cons, Option.any_some, isWordChar_of_isAsciiAlpha hc] at h
      cases h

lemma Comment.apart {k after : Text} (h : Comment k after) : Apart k after := by
  have hline {k after : Text} (ha : ∀ c ∈ after.head?, c = '\n') : Apart k after := by
    refine apart_of_head? ?_ k
    cases after with
    | nil => rfl
    | cons c after =>
      obtain rfl := ha c rfl
      rfl
  cases h with
  | dashes _ ha => exact hline ha
  | sharp _ ha _ => exact hline ha
  | @block u after hu =>
    refine apart_of_getLast? (c := '/') ?_ (by decide) after
    have hsplit : '/' :: '*' :: (u ++ ['*', '/']) = ('/' :: '*' :: (u ++ ['*'])) ++ ['/'] := by simp
    rw [hsplit, getLast?_concat]
  | openBlock => exact fun _ => rfl

lemma quotedLength_end (quote : Char) (t : Text) :
    t.drop (quotedLength quote t) = [] ∨ (t.take (quotedLength quote t)).getLast? = some quote := by
  have hcons {c : Char} {x : Text} (h : x.getLast? = some quote) :
      (c :: x).getLast? = some quote := by
    cases x with
    | nil => cases h
    | cons d x => rwa [getLast?_cons_cons]
  fun_induction quotedLength quote t with
  | case1 => exact .inl rfl
  | case2 u ih => exact ih.imp id fun h => hcons (hcons h)
  | case3 d u hd => exact .inr rfl
  | case4 => exact .inl rfl
  | case5 c t hc ih => exact ih.imp id hcons

lemma bracketLength?_end {t : Text} {n : Nat} (h : bracketLength? t = some n) :
    (t.take n).getLast? = some ']' := by
  unfold bracketLength? at h
  dsimp only at h
  split_ifs at h with hclosed
  obtain rfl := Option.some.inj h
  simp only [Bool.and_eq_true, beq_iff_eq] at hclosed
  rw [take_add_one, ← head?_drop, hclosed.2]
  exact getLast?_concat

lemma dollarLength_end {t tag : Text} (h : dollarTag? t = some tag) :
    t.drop (dollarLength tag t) = [] ∨ (t.take (dollarLength tag t)).getLast? = some '$' := by
  have htag : tag.getLast? = some '$' := by
    unfold dollarTag? at h
    dsimp only at h
    split_ifs at h
    obtain rfl := Option.some.inj h
    exact getLast?_concat
  unfold dollarLength
  dsimp only
  cases hb : beforeSub? ('$' :: tag) (t.drop tag.length) with
  | none => exact .inl drop_length
  | some inner =>
    right
    obtain ⟨⟨v, hv⟩, -⟩ := beforeSub?_eq_some (cons_ne_nil _ _) hb
    have hsplit : t = (t.take tag.length ++ (inner ++ '$' :: tag)) ++ v := by
      rw [append_assoc, append_assoc, ← hv, take_append_drop]
    have hlen : tag.length + inner.length + tag.length + 1 =
        (t.take tag.length ++ (inner ++ '$' :: tag)).length := by
      rw [length_append, length_append, length_cons, length_take_of_le (length_le_of_dollarTag? h)]
      omega
    conv_lhs => rw [hsplit]
    dsimp only
    rw [hlen, take_left, getLast?_append_of_ne_nil _ (by simp),
      getLast?_append_of_ne_nil _ (cons_ne_nil _ _), getLast?_cons, htag]
    rfl

lemma isWordChar_eq_false {c : Char} (hwide : isWide c = false) (halnum : isAsciiAlnum c = false)
    (hunder : c ≠ '_') : isWordChar c = false := by
  rw [isWordChar, hwide, if_neg Bool.false_ne_true, halnum, beq_eq_false_iff_ne.mpr hunder]
  rfl

lemma head?_drop_wordLength (t : Text) : (t.drop (wordLength t)).head?.any isWordChar = false := by
  induction t with
  | nil => rfl
  | cons c t ih =>
    rw [wordLength]
    split_ifs with hc
    · exact ih
    · simp only [Bool.or_eq_true, beq_iff_eq, not_or, Bool.not_eq_true] at hc
      obtain ⟨⟨⟨⟨⟨halnum, hunder⟩, -⟩, -⟩, hwide⟩, -⟩ := hc
      exact isWordChar_eq_false hwide halnum hunder

lemma head?_drop_numberLength (t : Text) :
    (t.drop (numberLength t)).head?.any isAsciiAlpha = false := by
  rw [numberLength, drop_length_takeWhile]
  cases hd : (t.dropWhile fun c => isAsciiAlnum c || c == '.' || c == '_').head? with
  | none => rfl
  | some d =>
    have hnot := not_of_mem_head?_dropWhile hd
    simp only [isAsciiAlnum, Bool.or_eq_false_iff] at hnot
    exact hnot.1.1.1

/-- **A plain piece is apart from what follows it.**

**Proof sketch.** By the first character of the piece. Comments, literals, quoted identifiers and
dollar bodies end with a character that is no word character, before a line feed or at the end of
the text. Words and numbers take all the letters that follow. Symbols are no word characters. -/
lemma apart_plainPiece (st : State) (c : Char) (t : Text) :
    Apart (c :: t.take (plainPiece st c t).more) (t.drop (plainPiece st c t).more) := by
  have hsymbol {c : Char} (hc : isWordChar c = false) :
      Apart (c :: t.take (lexeme .symbol 0 st).more) (t.drop (lexeme .symbol 0 st).more) :=
    apart_of_getLast? rfl hc _
  have hclosed {c d : Char} {n : Nat} (hd : isWordChar d = false)
      (h : t.drop n = [] ∨ (t.take n).getLast? = some d) : Apart (c :: t.take n) (t.drop n) := by
    rcases h with h | h
    · rw [h]
      exact fun _ => rfl
    · refine (apart_of_getLast? h hd _).cons ?_ c
      rintro hnil
      rw [hnil] at h
      cases h
  rcases plainPiece_cases st c t with ⟨kind, more, hlexeme, -⟩ | ⟨more, fresh, hq, -, hcomment⟩
  swap
  · rw [hq]
    exact hcomment.apart
  induction c using first_cases with
  | dash =>
    rw [plainPiece_dash] at hlexeme ⊢
    split_ifs at hlexeme ⊢
    · cases hlexeme
    · exact hsymbol (by decide)
  | slash =>
    rw [plainPiece_slash] at hlexeme ⊢
    split_ifs at hlexeme ⊢
    · split at hlexeme <;> cases hlexeme
    · exact hsymbol (by decide)
  | sharp =>
    rw [plainPiece_sharp] at hlexeme ⊢
    split_ifs at hlexeme ⊢
    · cases hlexeme
    · exact apart_of_head? (head?_drop_wordLength t) _
  | quote c hc =>
    have hword : ∀ c ∈ ['\'', '"', '`'], isWordChar c = false := by decide
    rw [plainPiece_quote st t hc]
    exact hclosed (hword c hc) (quotedLength_end c t)
  | bracket =>
    rw [plainPiece_bracket]
    split
    · next n hn => exact hclosed (by decide) (.inr (bracketLength?_end hn))
    · exact hsymbol (by decide)
  | dollar =>
    rw [plainPiece_dollar]
    split
    · next tag _ htag => exact hclosed (by decide) (dollarLength_end htag)
    · exact hsymbol (by decide)
  | other c hc =>
    rw [plainPiece_other _ _ hc]
    split_ifs with hdigit hstart
    · exact fun _ => head?_drop_numberLength t
    · exact apart_of_head? (head?_drop_wordLength t) _
    · simp only [isWordStart, Bool.or_eq_true, beq_iff_eq, not_or,
        Bool.not_eq_true] at hdigit hstart
      obtain ⟨⟨⟨⟨halpha, hunder⟩, -⟩, -⟩, hwide⟩ := hstart
      refine hsymbol (isWordChar_eq_false hwide ?_ hunder)
      rw [isAsciiAlnum, halpha, hdigit]
      rfl

/-- **A piece is apart from what follows it.** -/
lemma apart_piece {st : State} (hst : st.delimiter = none) (c : Char) (t : Text) :
    Apart (c :: t.take (piece false st c t).more) (t.drop (piece false st c t).more) := by
  by_cases hc : isAsciiBlank c
  · rw [piece, if_pos hc]
    exact apart_of_getLast? rfl (isWordChar_eq_false_of_isBlank (isBlank_of_isAsciiBlank hc)) _
  · have hpiece : piece false st c t = plainPiece st c t := by
      rw [piece_of_delimiter_eq_none hst, if_neg hc]
    rw [hpiece]
    exact apart_plainPiece st c t

/-! ## Words -/

/-- **What a run reads is apart from what it leaves.** -/
lemma Run.exists_append_apart {st st' : State} {i j : Nat} {t u : Text} {ls : List Lexeme}
    (h : Run false st i t ls st' j u) (hst : st.delimiter = none) {x : Text} (hx : Apart x t) :
    st'.delimiter = none ∧ ∃ y, t = y ++ u ∧ j = i + byteLength y ∧ Apart (x ++ y) u := by
  induction h using step_induction generalizing x with
  | refl => exact ⟨hst, [], rfl, rfl, by rwa [append_nil]⟩
  | step st i c t ls _ ih =>
    have hapart := (apart_piece hst c t).append_left (cons_ne_nil _ _) x
    simp only [Piece.width, skip_piece, Nat.add_zero] at ih
    obtain ⟨hst', y, hy, rfl, hapart⟩ := ih (delimiter_piece hst c t) hapart
    refine ⟨hst', (c :: t.take (piece false st c t).more) ++ y, ?_, ?_, ?_⟩
    · rw [append_assoc, ← hy, cons_append, take_append_drop]
    · rw [byteLength_append, Nat.add_assoc]
    · rwa [← append_assoc]

/-- **No word character stands before or behind a word** that starts with a letter. -/
lemma exists_split_of_word {t : Text} {l : Lexeme} (hl : l ∈ tokenize t) (hk : l.kind = .word)
    (hhead : l.text.head?.any isAsciiAlpha) :
    ∃ y z, t = y ++ (l.text ++ z) ∧ l.start = byteLength y ∧
      y.getLast?.any isWordChar = false ∧ z.head?.any isWordChar = false := by
  obtain ⟨ls, st, c, u, hrun, hkind, htext⟩ := exists_run_of_mem hl
  have hnil : Apart [] t := fun h => by cases h
  obtain ⟨hst, y, hy, hstart, hapart⟩ := hrun.exists_append_apart rfl hnil
  rw [hk] at hkind
  obtain ⟨hpiece, -⟩ := piece_word hst hkind
  refine ⟨y, u.drop (wordLength u), ?_, ?_, ?_, head?_drop_wordLength u⟩
  · rw [htext, hpiece, cons_append]
    exact hy.trans (by rw [lexeme, take_append_drop])
  · rw [hstart, Nat.zero_add]
  · rw [htext] at hhead
    cases hlast : y.getLast?.any isWordChar with
    | false => rfl
    | true => exact absurd (hapart hlast) (by simpa using hhead)

end SqlOutline.Scan
