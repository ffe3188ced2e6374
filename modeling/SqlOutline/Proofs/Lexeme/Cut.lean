import SqlOutline.Proofs.Lexeme.Tail

/-!
# Texts that are cut behind a lexeme

A text that is cut off behind one of its lexemes has the same lexemes up to there, although the
scanner looks ahead. But a number sign that starts a word is a comment at the end of a text.

## Main definitions

* `withoutFinalSharp` — lexemes without the last one, if that is a number sign.

## Main results

* `plainPiece_of_append` — a plain piece of a text that is cut behind it.
* `scanFrom_cut` — the lexemes of a text that is cut behind a lexeme.
-/

namespace SqlOutline

open List

/-- Lexemes without the last one, if that is a number sign. -/
def withoutFinalSharp (ls : List Lexeme) : List Lexeme :=
  if ls.getLast?.any (·.text == ['#']) then ls.dropLast else ls

lemma withoutFinalSharp_cons {l : Lexeme} {ls : List Lexeme} (h : ls = [] → l.text ≠ ['#']) :
    withoutFinalSharp (l :: ls) = l :: withoutFinalSharp ls := by
  cases ls with
  | nil =>
    have hl : (l.text == ['#']) = false := beq_eq_false_iff_ne.mpr (h rfl)
    simp [withoutFinalSharp, hl]
  | cons m ls =>
    unfold withoutFinalSharp
    rw [getLast?_cons_cons, dropLast_cons_cons]
    split_ifs <;> rfl

namespace Scan

open Text

/-! ## Parts of pieces -/

section Parts

variable {t v : Text}

lemma takeWhile_of_append {p : Char → Bool} (h : ((t ++ v).takeWhile p).length ≤ t.length) :
    t.takeWhile p = (t ++ v).takeWhile p := by
  induction t with
  | nil => exact (length_eq_zero_iff.mp (Nat.le_zero.mp h)).symm
  | cons c t ih =>
    rw [cons_append, takeWhile_cons] at h ⊢
    rw [takeWhile_cons]
    split_ifs at h ⊢ with hc
    · rw [ih (Nat.le_of_succ_le_succ h)]
    · rfl

lemma takeWhile_eq_self_of_append {p : Char → Bool}
    (h : t.length ≤ ((t ++ v).takeWhile p).length) : t.takeWhile p = t := by
  have hpart : t.takeWhile p <+: t := takeWhile_prefix p
  apply hpart.eq_of_length_le
  by_contra hshort
  rw [takeWhile_append, if_neg (by omega)] at h
  exact hshort h

lemma head?_drop_of_append {n : Nat} (h : n < t.length) :
    ((t ++ v).drop n).head? = (t.drop n).head? := by
  rw [drop_append_of_le_length (Nat.le_of_lt h), head?_append_of_ne_nil]
  rw [ne_eq, drop_eq_nil_iff]
  omega

lemma lineLength_of_append (h : lineLength (t ++ v) ≤ t.length) :
    lineLength t = lineLength (t ++ v) := by
  rw [lineLength, lineLength, takeWhile_of_append h]

lemma dollarTag?_of_append (h : ∀ tag ∈ dollarTag? (t ++ v), tag.length ≤ t.length) :
    dollarTag? t = dollarTag? (t ++ v) := by
  unfold dollarTag? at h ⊢
  dsimp only at h ⊢
  set name := (t ++ v).takeWhile isTagChar with hname
  by_cases hlt : name.length < t.length
  · rw [takeWhile_of_append (Nat.le_of_lt hlt), ← hname, head?_drop_of_append hlt]
  · -- the tag would have to end behind the first part
    have hopen : ¬ (((t ++ v).drop name.length).head? == some '$') ∨
        name.head?.any isAsciiDigit := by
      by_contra! hclosed
      rw [if_neg hclosed.2, if_pos hclosed.1] at h
      have := h _ rfl
      rw [length_append, length_singleton] at this
      omega
    rw [takeWhile_eq_self_of_append (Nat.le_of_not_lt hlt), drop_length, head?_nil]
    rcases hopen with hopen | hdigit
    · rw [if_neg hopen]
      simp
    · rw [if_pos hdigit]
      simp

end Parts

/-! ## Pieces -/

variable {st : State} {c : Char} {t v : Text}

/-- **A plain piece of a text that is cut behind it** is the same without what stands behind the
cut, if it is no number sign that is a word by itself, and the cut leaves no dollar sign alone that
is the first of two. -/
lemma plainPiece_of_append (hv : v ≠ []) (h : (plainPiece st c (t ++ v)).more ≤ t.length)
    (hsharp : c = '#' → t = [] → (plainPiece st c (t ++ v)).kind = none)
    (hd : v.head? = some '$' → t.drop (plainPiece st c (t ++ v)).more ≠ ['$']) :
    plainPiece st c t = plainPiece st c (t ++ v) := by
  have hcongr := plainPiece_append_congr (v := []) hv h (by simp) (fun hs ht => ?_) (fun _ hm => ?_)
    (fun _ hle => ?_) (fun _ hle => ?_) (fun hle => ?_) fun hm => ?_
  · rwa [append_nil] at hcongr
  · subst hs ht
    have hcomment := hsharp rfl rfl
    rw [nil_append, plainPiece_sharp] at hcomment
    split_ifs at hcomment with he
    · exact he.symm
    · cases hcomment
  all_goals rw [append_nil]
  · exact lineLength_of_append (by omega)
  · exact bracketLength?_of_append hle
  · exact dollarTag?_of_append hle
  · rw [numberLength, takeWhile_of_append hle]
    rfl
  · exact wordLength_of_append (by omega) (hm ▸ hd)

lemma piece_eq_of_not_directive
    (h : (piece true st c t).kind ≠ some .directive) : piece false st c t = piece true st c t := by
  unfold piece at h ⊢
  by_cases hc : isAsciiBlank c
  · rw [if_pos hc, if_pos hc]
  · rw [if_neg hc] at h ⊢
    rw [if_neg hc]
    cases hline : (if (true && st.freshLine) = true then directive? st c t else none) with
    | none => rfl
    | some p =>
      rw [hline] at h
      split_ifs at hline
      exact absurd (directive?_cases hline).1 h

lemma piece_of_delimiter_eq_none (hst : st.delimiter = none) (c : Char) (t : Text) :
    piece false st c t = if isAsciiBlank c = true then
      ⟨none, 0, 0, { st with freshLine := st.freshLine || c == '\n' }⟩ else plainPiece st c t := by
  unfold piece
  rw [hst]
  rfl

lemma piece_of_append (hst : st.delimiter = none)
    (h : v.length ≤ ((t ++ v).drop (piece false st c (t ++ v)).more).length)
    (hsharp : c = '#' → t = [] → (piece false st c (t ++ v)).kind = none)
    (hd : v.head? = some '$' → t.drop (piece false st c (t ++ v)).more ≠ ['$']) :
    piece false st c t = piece false st c (t ++ v) := by
  by_cases hv : v = []
  · rw [hv, append_nil]
  have hlen : (piece false st c (t ++ v)).more ≤ t.length := by
    have hpos := length_pos_iff.mpr hv
    rw [length_drop, length_append] at h
    omega
  rw [piece_of_delimiter_eq_none hst] at hlen hsharp hd ⊢
  rw [piece_of_delimiter_eq_none hst]
  split_ifs at hlen hsharp hd ⊢
  · rfl
  · exact plainPiece_of_append hv hlen hsharp hd

lemma take_drop_of_append {n : Nat} (h : v.length ≤ ((t ++ v).drop n).length) :
    (t ++ v).take n = t.take n ∧ (t ++ v).drop n = t.drop n ++ v := by
  by_cases hv : v = []
  · rw [hv, append_nil, append_nil]
    exact ⟨rfl, rfl⟩
  · have hpos := length_pos_iff.mpr hv
    rw [length_drop, length_append] at h
    exact ⟨take_append_of_le_length (by omega), drop_append_of_le_length (by omega)⟩

lemma plainPiece_congr {st' : State} (h : st.delimiter = st'.delimiter) (c : Char) (t : Text) :
    (plainPiece st c t).kind = (plainPiece st' c t).kind ∧
      (plainPiece st c t).more = (plainPiece st' c t).more := by
  unfold plainPiece lexeme
  rw [h]
  dsimp only
  split_ifs <;> exact ⟨rfl, rfl⟩

/-! ## Runs -/

lemma delimiter_piece (hst : st.delimiter = none) (c : Char) (t : Text) :
    (piece false st c t).state.delimiter = none :=
  (piece_delimiter (kind_piece_ne_directive st c t)).trans hst

lemma scanFrom_congr {st' : State} (hst : st.delimiter = none) (hst' : st'.delimiter = none)
    (i : Nat) (t : Text) : scanFrom false st i t = scanFrom false st' i t := by
  induction st, i, t using scan_induction false generalizing st' with
  | nil => rw [scanFrom, scanFrom]
  | cons st i c t ih =>
    obtain ⟨hkind, hmore⟩ : (piece false st c t).kind = (piece false st' c t).kind ∧
        (piece false st c t).more = (piece false st' c t).more := by
      rw [piece_of_delimiter_eq_none hst, piece_of_delimiter_eq_none hst']
      split_ifs
      · exact ⟨rfl, rfl⟩
      · exact plainPiece_congr (hst.trans hst'.symm) c t
    rw [scanFrom_cons, scanFrom_cons, ih (delimiter_piece hst c t) (delimiter_piece hst' c t)]
    simp only [Piece.lexemes, Piece.width, hkind, hmore, skip_piece]

namespace Run

variable {st st' : State} {i j : Nat} {t u v : Text} {ls : List Lexeme}

lemma delimiter_eq_of_statement (h : Run false st i t ls st' j u) :
    st'.delimiter = st.delimiter := by
  induction h using step_induction with
  | refl => rfl
  | step _ _ _ _ _ _ ih => rw [ih, piece_delimiter (kind_piece_ne_directive _ _ _)]

lemma of_script (h : Run true st i t ls st' j u) (hls : ∀ l ∈ ls, l.kind ≠ .directive) :
    Run false st i t ls st' j u := by
  induction h using step_induction with
  | refl => exact .refl _ _ _
  | step st i c t ls _ ih =>
    obtain ⟨hl, hls⟩ := forall_mem_append.mp hls
    have hp : piece false st c t = piece true st c t :=
      piece_eq_of_not_directive fun hk => by simp [Piece.lexemes, hk] at hl
    have hrun := ih hls
    rw [← hp] at hrun ⊢
    exact hrun.step

lemma not_dollar (h : Run false st i ('$' :: v) ls st' j v) (hst : st.delimiter = none) :
    v.head? ≠ some '$' := by
  intro hv
  obtain ⟨w, rfl⟩ := head?_eq_some_iff.mp hv
  have htag : dollarTag? ('$' :: w) = some ['$'] := by
    simp [dollarTag?, isTagChar, isAsciiAlnum, isAsciiAlpha, isAsciiDigit]
  -- the two dollar signs open a dollar body
  have hmore : 1 ≤ (piece false st '$' ('$' :: w)).more := by
    rw [piece_of_delimiter_eq_none hst, if_neg (by decide), plainPiece_dollar, hst, htag]
    exact length_tag_le_dollarLength htag
  generalize hx : '$' :: '$' :: w = x at h
  induction h using step_induction with
  | refl => simpa using congrArg length hx
  | step st i c t ls h _ =>
    obtain ⟨rfl, rfl⟩ := cons.inj hx
    have := h.length_le
    have := (piece false st '$' ('$' :: w)).more_le_width
    rw [length_drop, length_cons] at *
    omega

/-- **A text that is cut behind a lexeme** has the lexemes that a run up to the cut reads, without a
number sign at the end.

**Proof sketch.** Induction on the run. Every piece on the way ends before the cut, so it is the
same in the cut text (`piece_of_append`). Only a number sign that is a word by itself right before
the cut is not: in the cut text it is a comment. -/
lemma scanFrom_cut (h : Run false st i (t ++ v) ls st' j v) (hst : st.delimiter = none)
    (hnil : ls = [] → t = []) (hlast : ∀ l ∈ ls.getLast?, l.stop = j) :
    scanFrom false st i t = withoutFinalSharp ls := by
  generalize hx : t ++ v = x at h
  induction h using step_induction generalizing t with
  | refl =>
    rw [hnil rfl, scanFrom]
    rfl
  | step st i c s ls h ih =>
    have hle := h.length_le
    cases t with
    | nil =>
      rw [length_drop, show v = c :: s from hx, length_cons] at hle
      omega
    | cons d t =>
      obtain ⟨rfl, rfl⟩ := cons.inj (cons_append ▸ hx)
      set p := piece false st d (t ++ v) with hp
      have hwidth : p.width = p.more := by rw [Piece.width, hp, skip_piece, Nat.add_zero]
      rw [hwidth] at h hle ih
      obtain ⟨htake, hdrop⟩ := take_drop_of_append hle
      have hnext : p.state.delimiter = none := delimiter_piece hst _ _
      have hsame (hsharp : d = '#' → t = [] → p.kind = none) : piece false st d t = p := by
        refine piece_of_append hst hle hsharp fun hv hd => ?_
        rw [hdrop, hd] at h
        exact h.not_dollar hnext hv
      rw [Piece.lexemes] at hnil hlast ⊢
      cases hk : p.kind with
      | none =>
        rw [hk] at hnil hlast
        have hp' := hsame fun _ _ => hk
        rw [scanFrom_gap (by rw [hp']; exact hk), hp', ← htake]
        exact ih hnext (fun h => absurd (hnil h) (cons_ne_nil _ _)) hlast hdrop.symm
      | some kind =>
        rw [hk] at hlast
        -- the lexeme reaches up to the cut if it is the last one
        have hrest : ls = [] → t.drop p.more = [] := by
          rintro rfl
          obtain ⟨x, hx, hj⟩ := h.exists_append
          have hstop := hlast ⟨kind, d :: (t ++ v).take p.more, i⟩ rfl
          rw [hdrop, append_cancel_right_eq] at hx
          rw [hx, ← byteLength_eq_zero]
          rw [Lexeme.stop, hj] at hstop
          dsimp only at hstop
          omega
        by_cases hsharp : d = '#' ∧ t = []
        · obtain ⟨rfl, rfl⟩ := hsharp
          have hls : ls = [] := by
            rw [hdrop, drop_nil, nil_append] at h
            exact (h.eq_of_length_le (Nat.le_refl _)).1
          have hcomment : (piece false st '#' []).kind = none := by
            rw [piece_of_delimiter_eq_none hst, if_neg (by decide), plainPiece_sharp]
            rfl
          rw [scanFrom_gap hcomment, drop_nil, scanFrom, hls, htake, take_nil]
          rfl
        have hp' := hsame fun hd ht => absurd ⟨hd, ht⟩ hsharp
        have hscan : scanFrom false p.state (i + byteLength (d :: t.take p.more)) (t.drop p.more) =
            withoutFinalSharp ls := by
          rw [← htake]
          refine ih hnext hrest (fun l hl => hlast l ?_) hdrop.symm
          rw [getLast?_append, Option.mem_def.mp hl]
          rfl
        rw [scanFrom_cons, hp', hwidth, hscan, Piece.lexemes, hk, htake]
        refine (withoutFinalSharp_cons fun hls htext => hsharp ?_).symm
        obtain ⟨rfl, hnone⟩ := cons.inj htext
        exact ⟨rfl, by rw [← take_append_drop p.more t, hnone, hrest hls, append_nil]⟩

end Run

end Scan

end SqlOutline
