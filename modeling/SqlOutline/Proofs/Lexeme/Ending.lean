import SqlOutline.Proofs.Lexeme.Tail

/-!
# Ends of texts

A line feed behind a text ends what is open there, apart from literals and block comments.

## Main definitions

* `LiteralsClosed` — a text without open literals.

## Main results

* `exists_run_or_crossing` — a run leads to the end of a text, or to an open piece.
* `literalsClosed_of_word` — a text that ends with a word has no open literals.
-/

namespace SqlOutline.Scan

open List Text

/-! ## The line feed behind a text -/

variable {st : State} {c : Char} {t : Text}

lemma skip_of_directive? {p : Piece} (h : directive? st c t = some p) :
    p.skip = 0 ∨ p.more + p.skip + 1 = lineLength (c :: t) := by
  rcases directive?_eq_some h with ⟨hne, -, rfl⟩ | ⟨first, mark, more, -, -, -, rfl⟩
  · have hpos := length_pos_iff.mpr hne
    obtain ⟨w, hw, -⟩ := exists_eq_trimEnd_append ((c :: t).take (lineLength (c :: t)))
    have hline := congrArg length hw
    rw [length_append, length_take] at hline
    right
    dsimp only [lexeme]
    omega
  · exact Or.inl rfl

lemma piece_more_add_skip_le {script : Bool} {z : Text}
    (h : (piece script st c (t ++ '\n' :: z)).more ≤ t.length) :
    (piece script st c (t ++ '\n' :: z)).width ≤ t.length := by
  have hzero : (piece script st c (t ++ '\n' :: z)).skip = 0 ∨
      (piece script st c (t ++ '\n' :: z)).more + (piece script st c (t ++ '\n' :: z)).skip + 1 =
        lineLength (c :: (t ++ '\n' :: z)) := by
    by_cases hk : (piece script st c (t ++ '\n' :: z)).kind = some .directive
    · exact skip_of_directive? (directive?_of_kind hk).2.2
    · exact Or.inl (piece_of_not_directive hk).1
  rw [Piece.width]
  rcases hzero with hskip | hwidth
  · rwa [hskip]
  · rw [← cons_append, lineLength_append_newline] at hwidth
    have := lineLength_le (c :: t)
    rw [length_cons] at this
    omega

/-- **The end of a text**: a run leads there, or to a piece that reaches over the line feed behind
the text. -/
lemma exists_run_or_crossing (script : Bool) (st : State) (i : Nat) (t : Text) :
    (∃ ls st' j, Run script st i (t ++ ['\n']) ls st' j ['\n']) ∨
      ∃ ls st' j c r, Run script st i (t ++ ['\n']) ls st' j (c :: (r ++ ['\n'])) ∧
        r.length < (piece script st' c (r ++ ['\n'])).more := by
  induction hn : t.length using Nat.strong_induction_on generalizing st i t with
  | _ n ih =>
    cases t with
    | nil => exact Or.inl ⟨[], st, i, .refl _ _ _⟩
    | cons c t =>
      by_cases hcross : t.length < (piece script st c (t ++ ['\n'])).more
      · exact Or.inr ⟨[], st, i, c, t, .refl _ _ _, hcross⟩
      have hle := piece_more_add_skip_le (Nat.not_lt.mp hcross)
      set p := piece script st c (t ++ ['\n']) with hp
      have hrest : (t.drop p.width).length < n := by
        rw [← hn, length_drop, length_cons]
        omega
      rcases ih _ hrest p.state (i + byteLength (c :: t.take p.width)) _ rfl with
        ⟨ls, st', j, h⟩ | ⟨ls, st', j, d, r, h, hd⟩
      · exact Or.inl ⟨_, st', j, h.step_append hp.symm hle⟩
      · exact Or.inr ⟨_, st', j, d, r, h.step_append hp.symm hle, hd⟩

/-- A text without open literals: a line feed behind it continues none of its lexemes. -/
def LiteralsClosed (a : Text) : Prop := scanScript (a ++ ['\n']) = scanScript a

instance (a : Text) : Decidable (LiteralsClosed a) :=
  inferInstanceAs (Decidable (scanScript (a ++ ['\n']) = scanScript a))

/-! ## Texts that end with a word -/

lemma wordLength_le (t : Text) : wordLength t ≤ t.length := by
  simpa using wordLength_append_le (v := []) rfl t

lemma plainPiece_word (h : (plainPiece st c t).kind = some .word) :
    plainPiece st c t = lexeme .word (wordLength t) st ∧
      ∀ z, plainPiece st c (t ++ '\n' :: z) = lexeme .word (wordLength t) st := by
  induction c using first_cases with
  | sharp =>
    rw [plainPiece_sharp] at h ⊢
    cases t with
    | nil => cases h
    | cons d t =>
      split_ifs at h ⊢ with hd
      rw [head?_cons] at hd
      refine ⟨rfl, fun z => ?_⟩
      rw [plainPiece_sharp, cons_append, head?_cons, if_neg hd, ← cons_append,
        wordLength_append_newline]
  | other c hc =>
    rw [plainPiece_other _ _ hc] at h ⊢
    split_ifs at h ⊢ with hdigit hstart
    · cases h
    · refine ⟨rfl, fun z => ?_⟩
      rw [plainPiece_other _ _ hc, if_neg hdigit, if_pos hstart, wordLength_append_newline]
    · cases h
  -- no other character starts a word
  | dash =>
    rw [plainPiece_dash] at h
    split_ifs at h
    cases h
  | slash =>
    rw [plainPiece_slash] at h
    repeat' split at h
    all_goals cases h
  | quote c hc =>
    rw [plainPiece_quote st t hc] at h
    dsimp only [lexeme] at h
    split_ifs at h <;> cases h
  | bracket =>
    rw [plainPiece_bracket] at h
    split at h <;> cases h
  | dollar =>
    rw [plainPiece_dollar] at h
    split at h <;> cases h

lemma piece_word {script : Bool} (hst : st.delimiter = none)
    (h : (piece script st c t).kind = some .word) :
    piece script st c t = lexeme .word (wordLength t) st ∧
      ∀ z, piece script st c (t ++ '\n' :: z) = lexeme .word (wordLength t) st := by
  have hblank : isAsciiBlank c = false := by
    by_contra hc
    rw [piece, if_pos (Bool.not_eq_false _ ▸ hc)] at h
    cases h
  have hplain : ∀ u, (if (script && st.freshLine) = true then directive? st c u else none) = none →
      piece script st c u = plainPiece st c u := by
    intro u hu
    rw [piece, if_neg (by simp [hblank])]
    dsimp only
    rw [hu, hst]
  have hline : (if (script && st.freshLine) = true then directive? st c t else none) = none := by
    cases hd : (if (script && st.freshLine) = true then directive? st c t else none) with
    | none => rfl
    | some p =>
      rw [piece, if_neg (by simp [hblank])] at h
      dsimp only at h
      rw [hd] at h
      split_ifs at hd
      rw [(directive?_cases hd).1] at h
      cases h
  rw [hplain t hline] at h ⊢
  obtain ⟨hword, hnewline⟩ := plainPiece_word h
  refine ⟨hword, fun z => ?_⟩
  rw [hplain, hnewline]
  rwa [directive?_append_newline]

/-- **A text that ends with a word** has no open literals. -/
lemma literalsClosed_of_word {l : Lexeme} (hl : l ∈ scanScript t)
    (hstop : l.stop = byteLength t) (hword : l.kind = .word)
    (hdir : ∀ m ∈ scanScript t, m.kind ≠ .directive) : LiteralsClosed t := by
  obtain ⟨ls, st, c, u, hrun, hk, htext⟩ := exists_run_of_mem hl
  rw [hword] at hk
  have hscan := hrun.scanFrom_eq
  have hst : st.delimiter = none := hrun.delimiter_eq fun m hm => hdir m (by
    rw [scanScript, hscan]
    exact mem_append_left _ hm)
  obtain ⟨hpiece, hnewline⟩ := piece_word hst hk
  -- the word ends the text
  obtain ⟨x, hx, hstart⟩ := hrun.exists_append
  obtain ⟨-, hdrop⟩ : x ++ l.text = t ∧ u.drop (piece true st c u).more = [] := by
    apply append_inj_of_byteLength
    · rw [hx, htext, append_assoc, cons_append, take_append_drop, append_nil]
    · rw [Lexeme.stop, hstart] at hstop
      rw [byteLength_append]
      omega
  have hlen : wordLength u = u.length := by
    rw [hpiece, drop_eq_nil_iff] at hdrop
    exact Nat.le_antisymm (wordLength_le u) hdrop
  have hlong := hrun.append_newline State.wellFormed_init (cons_ne_nil c u) []
  have hall := hlong.trans (run_of_piece (by rw [hnewline, hlen]) l.start)
  have hshort := hall.append_of_breaksLine (r := []) (v := []) State.wellFormed_init
    (by simp [BreaksLine])
  rw [append_nil, append_nil] at hshort
  rw [LiteralsClosed, scanScript, scanScript, hall.scanFrom_eq, hshort.scanFrom_eq,
    scanFrom_gap rfl, drop_nil, scanFrom, scanFrom]

/-! ## Open comments -/

lemma Comment.of_newline {k after : Text} (h : Comment (k ++ ['\n']) after) :
    ∃ u, k ++ ['\n'] = '/' :: '*' :: u ∧ ¬ ['*', '/'] <:+: u := by
  generalize hx : k ++ ['\n'] = x at h
  have hmem : '\n' ∈ x := by
    rw [← hx]
    exact mem_append_right k (mem_singleton_self _)
  cases h with
  | dashes hu =>
    simp only [mem_cons, hu, or_false] at hmem
    rcases hmem with h | h <;> cases h
  | sharp hu =>
    simp only [mem_cons, hu, or_false] at hmem
    cases hmem
  | @block u after hu =>
    -- a closed comment ends in a slash
    have hlast := congrArg getLast? hx
    rw [getLast?_concat, ← cons_append, ← cons_append,
      show ['*', '/'] = ['*'] ++ ['/'] from rfl, ← append_assoc, getLast?_concat] at hlast
    cases Option.some.inj hlast
  | openBlock hu => exact ⟨_, rfl, hu⟩

lemma scanFrom_openComment {s : Text} (hst : st.delimiter = none)
    (hk : (piece true st '/' ('*' :: s ++ ['\n'])).kind = none) {v : Text} (hv : BreaksLine v)
    (hopen : ¬ ['*', '/'] <:+: s ++ v) (i : Nat) :
    scanFrom true st i ('/' :: '*' :: (s ++ v)) = [] := by
  have hdir : st.freshLine → directive? st '/' ('*' :: s ++ v) = none := by
    intro hfresh
    have hline : directive? st '/' ('*' :: s ++ v) = directive? st '/' ('*' :: s ++ ['\n']) := by
      rw [directive?_append_newline]
      cases v with
      | nil => rw [append_nil]
      | cons d v => rw [hv d rfl, directive?_append_newline]
    cases hd : directive? st '/' ('*' :: s ++ ['\n']) with
    | none => rw [hline, hd]
    | some p =>
      have hpiece : piece true st '/' ('*' :: s ++ ['\n']) = p := by
        unfold piece
        rw [if_neg (by decide), hfresh, hd]
        rfl
      rw [hpiece, (directive?_cases hd).1] at hk
      cases hk
  have hpiece : piece true st '/' ('*' :: s ++ v) = plainPiece st '/' ('*' :: s ++ v) := by
    unfold piece
    rw [if_neg (by decide), hst]
    cases hfresh : st.freshLine with
    | false => rfl
    | true =>
      rw [hdir hfresh]
      rfl
  have hnone : beforeSub? ['*', '/'] (s ++ v) = none := by
    cases hb : beforeSub? ['*', '/'] (s ++ v) with
    | none => rfl
    | some u =>
      obtain ⟨⟨w, hw⟩, -⟩ := beforeSub?_eq_some (by simp) hb
      exact absurd ⟨u, w, by rw [hw, append_assoc]⟩ hopen
  rw [cons_append, plainPiece_slash, if_pos head?_cons, drop_one, tail_cons, hnone] at hpiece
  rw [scanFrom_gap (by rw [hpiece]), hpiece]
  dsimp only
  rw [drop_length, scanFrom]

end SqlOutline.Scan
