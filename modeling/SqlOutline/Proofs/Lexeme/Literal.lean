import SqlOutline.Proofs.Lexeme.Movable

/-!
# Literals in their surroundings

A string literal doubles the apostrophes of its content, and a dollar body stands between two equal
tags, which the scanner and the reader of the content look for on their own.

## Main definitions

* `doubled`, `dollarMark`, `IsTag` — contents with doubled quotes, and tags.

## Main results

* `tokenize_stringLiteral`, `tokenize_dollarBody` — each is one lexeme that holds its content.
-/

namespace SqlOutline

open List Text Scan
open Lexeme (shift)

/-! ## String literals -/

/-- A text in which every quote of a kind is doubled. -/
def doubled (quote : Char) (t : Text) : Text := t.flatMap fun c => if c = quote then [c, c] else [c]

section Doubled

variable {quote : Char}

lemma doubled_cons (quote c : Char) (t : Text) :
    doubled quote (c :: t) = (if c = quote then [c, c] else [c]) ++ doubled quote t := rfl

lemma quotedLength_doubled (t : Text) {v : Text} (hv : v.head? ≠ some quote) :
    quotedLength quote (doubled quote t ++ quote :: v) = (doubled quote t).length + 1 := by
  induction t with
  | nil =>
    cases v with
    | nil => simp [doubled, quotedLength]
    | cons d v =>
      have hd : d ≠ quote := fun h => hv (h ▸ rfl)
      simp [doubled, quotedLength, hd]
  | cons c t ih =>
    rw [doubled_cons]
    split_ifs with hc
    · simp [quotedLength, hc, ih]
    · rw [singleton_append, cons_append, quotedLength.eq_def]
      simp [hc, ih]

lemma undouble_doubled (t : Text) : undouble (doubled '\'' t) = t := by
  induction t with
  | nil => rfl
  | cons c t ih =>
    rw [doubled_cons]
    split_ifs with hc
    · rw [hc]
      exact congrArg _ ih
    · rw [singleton_append, undouble.eq_2 _ _ fun _ h => absurd h hc, ih]

end Doubled

/-- **A string literal is one lexeme that holds its content**, whatever the content is and whatever
follows, unless that is another apostrophe. -/
theorem tokenize_stringLiteral (c : Text) {q : Text} (hq : q.head? ≠ some '\'') :
    let literal := '\'' :: (doubled '\'' c ++ ['\''])
    tokenize (literal ++ q) =
        ⟨.stringLit, literal, 0⟩ :: (tokenize q).map (shift (byteLength literal)) ∧
      stringContent literal = c := by
  intro literal
  refine ⟨tokenize_piece ?_, ?_⟩
  · have hlength := quotedLength_doubled c hq
    rw [append_assoc, length_append]
    exact congrArg (lexeme .stringLit · {}) hlength
  · simp [literal, stringContent, undouble_doubled]

/-- A content with apostrophes at both ends, a comment and a line end. -/
theorem tokenize_stringLiteral_apostrophes :
    let literal := "'''it''s -- ;\n'''".toList
    ";".toList.head? ≠ some '\'' ∧
      tokenize (literal ++ ";".toList) = ⟨.stringLit, literal, 0⟩ :: [⟨.symbol, [';'], 17⟩] ∧
        stringContent literal = "'it's -- ;\n'".toList := by
  have hq : ";".toList.head? ≠ some '\'' := by decide
  have hrest : tokenize ";".toList = [⟨.symbol, [';'], 0⟩] := by decide +kernel
  have hliteral := tokenize_stringLiteral "'it's -- ;\n'".toList hq
  rw [hrest] at hliteral
  exact ⟨hq, hliteral⟩

/-! ## New lines -/

namespace Scan

/-- A text that is empty or ends in a line feed, with only white space between its last lexeme, or
its start, and that line feed. -/
def EndsLine (p : Text) : Prop :=
  p = [] ∨ ∃ x w, p = x ++ (w ++ ['\n']) ∧ (∀ c ∈ w, isBlank c) ∧
    ((tokenize p).getLast?.map Lexeme.stop).getD 0 = byteLength x

lemma isAsciiBlank_of_gap {st : State} {c : Char} {t : Text} (hst : st.delimiter = none)
    (hc : isBlank c) (hk : (piece false st c t).kind = none) : isAsciiBlank c := by
  by_contra hno
  have hmem : c ∉ ['-', '/', '#', '\'', '"', '`', '[', '$'] := by
    intro hmem
    have hsolid : ∀ d ∈ ['-', '/', '#', '\'', '"', '`', '[', '$'], isBlank d = false := by decide
    rw [hsolid c hmem] at hc
    cases hc
  rw [piece_of_delimiter_eq_none hst, if_neg hno, plainPiece_other _ _ hmem] at hk
  split_ifs at hk <;> cases hk

lemma scanFrom_blanks {st : State} {w : Text} (hst : st.delimiter = none)
    (hw : ∀ c ∈ w, isBlank c) {i : Nat} (hnil : scanFrom false st i (w ++ ['\n']) = [])
    (v : Text) : scanFrom false st i (w ++ '\n' :: v) =
      (tokenize v).map (shift (i + byteLength (w ++ ['\n']))) := by
  induction w generalizing st i with
  | nil =>
    rw [nil_append, scanFrom_blank hst (by decide), tokenize, ← scanFrom_add]
    rfl
  | cons c w ih =>
    obtain ⟨hc, hw⟩ := forall_mem_cons.mp hw
    have hk : (piece false st c (w ++ ['\n'])).kind = none := by
      cases hk : (piece false st c (w ++ ['\n'])).kind with
      | none => rfl
      | some kind =>
        rw [cons_append, scanFrom_lexeme hk] at hnil
        cases hnil
    have hblank := isAsciiBlank_of_gap hst hc hk
    rw [cons_append, scanFrom_blank hst hblank] at hnil ⊢
    rw [ih rfl hw hnil, cons_append, byteLength_cons, Nat.add_assoc]

lemma exists_run_tokenize (t : Text) : ∃ st x r, t = x ++ r ∧ st.delimiter = none ∧
    Run false {} 0 t (tokenize t) st (byteLength x) r ∧
      ((tokenize t).getLast?.map Lexeme.stop).getD 0 = byteLength x := by
  rcases eq_nil_or_concat' (tokenize t) with hnil | ⟨ks, z, hz⟩
  · rw [hnil]
    exact ⟨{}, [], t, rfl, rfl, .refl _ _ _, rfl⟩
  · have hscan : scanFrom false {} 0 t = ks ++ z :: [] := hz
    obtain ⟨st, c, u, hrun, hk, htext⟩ := exists_run_to hscan
    have hlast := hrun.trans (.lexeme hk (.refl _ _ _))
    rw [skip_piece, ← htext, take_zero, byteLength_nil] at hlast
    obtain ⟨x, hx, hstop⟩ := hlast.exists_append
    rw [Nat.add_zero, ← Lexeme.stop, Nat.zero_add] at hstop
    rw [hz]
    refine ⟨_, x, _, hx, hlast.delimiter_eq_of_statement, ?_, by simpa using hstop⟩
    rw [← hstop]
    exact hlast

/-- **The scanner starts anew on a new line.** -/
lemma EndsLine.tokenize_append {p : Text} (hp : EndsLine p) (v : Text) :
    tokenize (p ++ v) = tokenize p ++ (tokenize v).map (shift (byteLength p)) := by
  obtain rfl | ⟨x, w, hp, hw, hlast⟩ := hp
  · rw [tokenize_nil]
    exact (Lexeme.map_shift_zero _).symm
  · obtain ⟨st, y, r, hy, hst, hrun, hstop⟩ := exists_run_tokenize p
    obtain ⟨rfl, rfl⟩ := append_inj_of_byteLength (hp.symm.trans hy) (hlast.symm.trans hstop)
    have hnil : scanFrom false st (byteLength x) (w ++ ['\n']) = [] :=
      append_cancel_left (hrun.scanFrom_eq.symm.trans (append_nil _).symm)
    have hline : p = (x ++ w) ++ '\n' :: [] := by simp [hp]
    have hnext : p ++ v = (x ++ w) ++ '\n' :: v := by simp [hp]
    rw [hline] at hrun
    have hmore :=
      hrun.append_of_breaksLine (v := '\n' :: v) State.wellFormed_init (by simp [BreaksLine])
    rw [hnext, tokenize, hmore.scanFrom_eq, scanFrom_blanks hst hw hnil, ← byteLength_append, hline]
    simp

end Scan

/-! ## Dollar bodies -/

/-- A name that can stand between dollar signs: it is empty, or starts with a letter or underscore
and goes on with letters, digits and underscores. -/
def IsTag (t : Text) : Prop :=
  (∀ c ∈ t, isTagChar c) ∧ ∀ c ∈ t.head?, isAsciiDigit c = false

/-- The tag of a dollar body with its dollar signs. -/
def dollarMark (t : Text) : Text := '$' :: (t ++ ['$'])

section Dollar

variable {t b r : Text}

lemma beforeSub?_eq {needle : Text} (hne : needle ≠ [])
    (h : ∀ n < b.length, ¬ needle <+: (b ++ needle).drop n) (v : Text) :
    beforeSub? needle (b ++ (needle ++ v)) = some b := by
  rw [← append_assoc]
  apply beforeSub?_append
  cases hfind : beforeSub? needle (b ++ needle) with
  | none => exact absurd (suffix_append b needle).isInfix (beforeSub?_eq_none hfind)
  | some x =>
    obtain ⟨⟨y, hy⟩, -⟩ := beforeSub?_eq_some hne hfind
    have hle : b.length ≤ x.length := by
      by_contra hlt
      apply h x.length (by omega)
      rw [hy, drop_left]
      exact prefix_append needle y
    have hlen := congrArg length hy
    simp only [length_append] at hlen
    rw [(append_inj hy (by omega)).1]

lemma beforeSub?_char {c : Char} (h : c ∉ t) (v : Text) :
    beforeSub? [c] (t ++ c :: v) = some t := by
  induction t with
  | nil => simp [beforeSub?]
  | cons d t ih =>
    rw [mem_cons, not_or] at h
    simp [beforeSub?, h.1, ih h.2]

variable (ht : IsTag t)

include ht

lemma IsTag.not_mem : '$' ∉ t := fun h => absurd (ht.1 '$' h) (by decide)

lemma IsTag.dollarTag?_eq (v : Text) : dollarTag? (t ++ '$' :: v) = some (t ++ ['$']) := by
  have hname : (t ++ '$' :: v).takeWhile isTagChar = t := by
    rw [takeWhile_append_stop (by decide), takeWhile_eq_self_iff.mpr ht.1]
  have hdigit : t.head?.any isAsciiDigit = false := by
    cases h : t.head? with
    | none => rfl
    | some c => exact ht.2 c h
  rw [dollarTag?, hname, hdigit]
  simp

lemma IsTag.tokenize_dollarMark {v : Text}
    (h : (beforeSub? (dollarMark t) (b ++ v)).elim (b ++ v).length
      (·.length + (dollarMark t).length) = b.length) :
    tokenize (dollarMark t ++ (b ++ v)) = ⟨.dollarBody, dollarMark t ++ b, 0⟩ ::
      (tokenize v).map (shift (byteLength (dollarMark t ++ b))) := by
  have hlength : dollarLength (t ++ ['$']) (t ++ '$' :: (b ++ v)) = (t ++ '$' :: b).length := by
    have hdrop : (t ++ '$' :: (b ++ v)).drop (t ++ ['$']).length = b ++ v := by simp
    rw [dollarLength, hdrop, ← dollarMark]
    rw [dollarMark] at h ⊢
    cases hsearch : beforeSub? ('$' :: (t ++ ['$'])) (b ++ v) <;>
      simp only [hsearch, Option.elim, length_append, length_cons, length_nil]
        at h ⊢ <;> omega
  have hpiece : piece false {} '$' ((t ++ '$' :: b) ++ v) =
      lexeme .dollarBody (t ++ '$' :: b).length {} := by
    rw [← hlength, append_assoc, cons_append]
    show plainPiece {} '$' _ = _
    rw [plainPiece_dollar, ht.dollarTag?_eq]
  simpa [dollarMark] using tokenize_piece hpiece

lemma IsTag.dollarInner_eq (s : Text) : dollarInner (dollarMark t ++ s) =
    if dollarMark t <:+ s then s.take (s.length - (dollarMark t).length) else s := by
  have hlong : ¬ byteLength (dollarMark t ++ s) < 2 := by
    have hsize : '$'.utf8Size = 1 := rfl
    simp only [dollarMark, byteLength_append, byteLength_cons, hsize]
    omega
  have hname : beforeSub? ['$'] ((dollarMark t ++ s).drop 1) = some t := by
    simpa [dollarMark] using beforeSub?_char ht.not_mem s
  have htag : (dollarMark t ++ s).take (t.length + 2) = dollarMark t :=
    take_left' (by simp [dollarMark])
  have hend : (dollarMark t).length * 2 ≤ (dollarMark t ++ s).length ∧
      dollarMark t <:+ dollarMark t ++ s ↔ dollarMark t <:+ s := by
    rw [length_append]
    constructor
    · rintro ⟨hlen, hsuffix⟩
      exact suffix_of_suffix_length_le hsuffix (suffix_append _ _) (by omega)
    · intro h
      have hlen := h.length_le
      exact ⟨by omega, h.trans (suffix_append _ _)⟩
  rw [dollarInner, if_neg hlong, hname]
  simp only [htag, endsWith, Bool.and_eq_true, decide_eq_true_eq, isSuffixOf_iff_suffix, hend,
    drop_left]
  rw [length_append, show (dollarMark t).length + s.length - (dollarMark t).length * 2 =
    s.length - (dollarMark t).length by omega]

end Dollar

/-- **A dollar body is one lexeme that holds its content.** On a new line the scanner reads a dollar
body up to the first occurrence of its tag, and goes on behind it. If the tag does not occur again,
the rest of the text is the body. -/
theorem tokenize_dollarBody {p t : Text} (hp : EndsLine p) (ht : IsTag t) :
    (∀ b q, (∀ n < b.length, ¬ dollarMark t <+: (b ++ dollarMark t).drop n) →
      tokenize (p ++ (dollarMark t ++ (b ++ (dollarMark t ++ q)))) = tokenize p ++
        ⟨.dollarBody, dollarMark t ++ (b ++ dollarMark t), byteLength p⟩ ::
          (tokenize q).map (shift (byteLength (p ++ (dollarMark t ++ (b ++ dollarMark t))))) ∧
      dollarInner (dollarMark t ++ (b ++ dollarMark t)) = b) ∧
    ∀ b, ¬ dollarMark t <:+: b →
      tokenize (p ++ (dollarMark t ++ b)) =
        tokenize p ++ [⟨.dollarBody, dollarMark t ++ b, byteLength p⟩] ∧
      dollarInner (dollarMark t ++ b) = b := by
  have hmark : dollarMark t ≠ [] := cons_ne_nil _ _
  refine ⟨fun b q hfirst => ⟨?_, ?_⟩, fun b hnot => ⟨?_, ?_⟩⟩
  · have hbody := ht.tokenize_dollarMark (b := b ++ dollarMark t) (v := q) (by
      rw [append_assoc, beforeSub?_eq hmark hfirst]
      exact length_append.symm)
    rw [append_assoc] at hbody
    rw [hp.tokenize_append, hbody, map_cons, Lexeme.map_shift_map_shift, ← byteLength_append]
    rfl
  · rw [ht.dollarInner_eq, if_pos (suffix_append _ _)]
    simp
  · have hsearch : beforeSub? (dollarMark t) b = none := by
      rw [Option.eq_none_iff_forall_ne_some]
      intro x hx
      obtain ⟨⟨y, rfl⟩, -⟩ := beforeSub?_eq_some hmark hx
      exact hnot (infix_append' x _ y)
    have hbody := ht.tokenize_dollarMark (b := b) (v := []) (by
      rw [append_nil, hsearch]
      rfl)
    rw [append_nil, show tokenize [] = [] by decide +kernel] at hbody
    rw [hp.tokenize_append, hbody]
    rfl
  · rw [ht.dollarInner_eq, if_neg fun h => hnot h.isInfix]

/-- A body that ends in the start of its tag, and one that is not closed. -/
theorem tokenize_dollarBody_overlap :
    EndsLine "x \n".toList ∧ IsTag "a".toList ∧
      tokenize "x \n$a$ $$a $a$;".toList = [⟨.word, ['x'], 0⟩,
        ⟨.dollarBody, "$a$ $$a $a$".toList, 3⟩, ⟨.symbol, [';'], 14⟩] ∧
      dollarInner "$a$ $$a $a$".toList = " $$a ".toList ∧
      tokenize "x \n$a$a$".toList = [⟨.word, ['x'], 0⟩, ⟨.dollarBody, "$a$a$".toList, 3⟩] ∧
      dollarInner "$a$a$".toList = "a$".toList := by
  have hp : EndsLine "x \n".toList :=
    .inr ⟨['x'], [' '], by decide, by decide, by decide +kernel⟩
  have ht : IsTag "a".toList := ⟨by decide, by decide⟩
  have hx : tokenize "x \n".toList = [⟨.word, ['x'], 0⟩] := by decide +kernel
  have hq : tokenize ";".toList = [⟨.symbol, [';'], 0⟩] := by decide +kernel
  obtain ⟨hclosed, hopen⟩ := tokenize_dollarBody hp ht
  obtain ⟨hlexemes, hinner⟩ := hclosed " $$a ".toList ";".toList (by decide)
  obtain ⟨hlexemes', hinner'⟩ := hopen "a$".toList (by decide)
  rw [hx, hq] at hlexemes
  rw [hx] at hlexemes'
  exact ⟨hp, ht, hlexemes, hinner, hlexemes', hinner'⟩

end SqlOutline
