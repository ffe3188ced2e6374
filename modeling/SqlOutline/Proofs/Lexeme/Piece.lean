import SqlOutline.Lexeme.Scan
import SqlOutline.Proofs.Text.Slice

/-!
# Pieces of a script

What one step of the scanner does, said once for all the statements about whole scans.

## Main definitions

* `Comment` — a whole comment, and the text that stands behind it.

## Main results

* `plainPiece_cases`, `directive?_cases`, `piece_cases` — what a piece can be.
* `piece_gap` — a piece without a kind is one white space character or one whole comment.
-/

namespace SqlOutline.Scan

open Option List Text

/-! ## Comments -/

/-- A whole comment, and the text that stands behind it. A comment that starts with two dashes or
with a number sign ends before the next line feed; behind the number sign stands white space,
another number sign or nothing. A comment that starts with a slash and a star ends behind the next
star with a slash, or at the end of the text if there is none. -/
inductive Comment : Text → Text → Prop
  | dashes {u after : Text} (hu : '\n' ∉ u) (ha : ∀ c ∈ after.head?, c = '\n') :
      Comment ('-' :: '-' :: u) after
  | sharp {u after : Text} (hu : '\n' ∉ u) (ha : ∀ c ∈ after.head?, c = '\n')
      (hn : ∀ c ∈ (u ++ after).head?, isAsciiBlank c ∨ c = '#') :
      Comment ('#' :: u) after
  | block {u after : Text} (hu : ¬ ['*', '/'] <:+: u ++ ['*']) :
      Comment ('/' :: '*' :: (u ++ ['*', '/'])) after
  | openBlock {u : Text} (hu : ¬ ['*', '/'] <:+: u) : Comment ('/' :: '*' :: u) []

variable {t : Text} {c : Char} {st : State}

lemma not_mem_take_lineLength (t : Text) : '\n' ∉ t.take (lineLength t) := by
  rw [lineLength, take_length_takeWhile]
  intro h
  simpa using mem_takeWhile_imp h

lemma eq_newline_of_mem_head?_drop (h : c ∈ (t.drop (lineLength t)).head?) : c = '\n' := by
  rw [lineLength, drop_length_takeWhile] at h
  simpa using not_of_mem_head?_dropWhile h

lemma comment_dashes (u : Text) : Comment ('-' :: ('-' :: u).take (lineLength ('-' :: u)))
      (('-' :: u).drop (lineLength ('-' :: u))) := by
  have hlen : lineLength ('-' :: u) = lineLength u + 1 := by simp [lineLength]
  rw [hlen, take_succ_cons, drop_succ_cons]
  exact .dashes (not_mem_take_lineLength u) fun c hc => eq_newline_of_mem_head?_drop hc

lemma comment_sharp (hn : ∀ c ∈ t.head?, isAsciiBlank c ∨ c = '#') :
    Comment ('#' :: t.take (lineLength t)) (t.drop (lineLength t)) := by
  refine .sharp (not_mem_take_lineLength t) (fun c hc => eq_newline_of_mem_head?_drop hc) ?_
  rwa [take_append_drop]

lemma comment_block {u inner : Text} (h : beforeSub? ['*', '/'] u = some inner) :
    Comment ('/' :: ('*' :: u).take (inner.length + 3)) (('*' :: u).drop (inner.length + 3)) := by
  obtain ⟨⟨v, rfl⟩, hno⟩ := beforeSub?_eq_some (by simp) h
  have htake : (inner ++ (['*', '/'] ++ v)).take (inner.length + 2) = inner ++ ['*', '/'] := by
    rw [take_length_add_append]
    rfl
  rw [take_succ_cons, htake]
  exact .block (by simpa using hno)

/-! ## What a piece can be -/

section Plain

variable (st : State) (t : Text)

lemma plainPiece_dash : plainPiece st '-' t =
    if t.head? = some '-' then ⟨none, lineLength t, 0, st⟩ else lexeme .symbol 0 st := by
  by_cases h : t.head? = some '-' <;>
    simp [plainPiece, h, isAsciiDigit, isWordStart, isAsciiAlpha, isWide]

lemma plainPiece_slash : plainPiece st '/' t =
    if t.head? = some '*' then
      match beforeSub? ['*', '/'] (t.drop 1) with
      | some inner => ⟨none, inner.length + 3, 0, { st with freshLine := false }⟩
      | none => ⟨none, t.length, 0, { st with freshLine := false }⟩
    else lexeme .symbol 0 st := by
  by_cases h : t.head? = some '*'
  · rw [if_pos h, plainPiece, if_neg (by simp)]
    exact if_pos (by simp [h])
  · simp [plainPiece, h, isAsciiDigit, isWordStart, isAsciiAlpha, isWide]

lemma plainPiece_sharp : plainPiece st '#' t =
    if (t.head?.all fun d => isAsciiBlank d || d == '#') = true then ⟨none, lineLength t, 0, st⟩
    else lexeme .word (wordLength t) st := by
  by_cases h : (t.head?.all fun d => isAsciiBlank d || d == '#') = true <;>
    simp [plainPiece, h, isAsciiDigit, isWordStart]

lemma plainPiece_quote {c : Char} (hc : c ∈ ['\'', '"', '`']) : plainPiece st c t =
    lexeme (if c = '\'' then .stringLit else .quotedIdent) (quotedLength c t) st := by
  simp only [mem_cons, not_mem_nil, or_false] at hc
  rcases hc with rfl | rfl | rfl <;> rfl

lemma plainPiece_bracket : plainPiece st '[' t =
    match bracketLength? t with
    | some n => lexeme .quotedIdent n st
    | none => lexeme .symbol 0 st := rfl

lemma plainPiece_dollar : plainPiece st '$' t =
    match st.delimiter, dollarTag? t with
    | none, some tag => lexeme .dollarBody (dollarLength tag t) st
    | _, _ => lexeme .symbol 0 st := rfl

lemma plainPiece_other {c : Char} (h : c ∉ ['-', '/', '#', '\'', '"', '`', '[', '$']) :
    plainPiece st c t =
      if isAsciiDigit c = true then lexeme .number (numberLength t) st
      else if isWordStart c = true then lexeme .word (wordLength t) st
      else lexeme .symbol 0 st := by
  simp only [mem_cons, not_mem_nil, or_false, not_or] at h
  simp [plainPiece, h]

/-- The first character of a plain piece tells its shape. -/
lemma first_cases {motive : Char → Prop} (dash : motive '-') (slash : motive '/')
    (sharp : motive '#') (quote : ∀ c ∈ ['\'', '"', '`'], motive c) (bracket : motive '[')
    (dollar : motive '$') (other : ∀ c ∉ ['-', '/', '#', '\'', '"', '`', '[', '$'], motive c)
    (c : Char) : motive c := by
  by_cases h : c ∈ ['-', '/', '#', '\'', '"', '`', '[', '$']
  · simp only [mem_cons, not_mem_nil, or_false] at h quote
    rcases h with rfl | rfl | rfl | h | h | h | rfl | rfl <;> simp_all
  · exact other c h

end Plain

/-- **Plain pieces**: a lexeme, which is neither a directive nor a delimiter, or a whole comment.
Behind a block comment the line is not fresh, and any other comment ends before the end of its
line. -/
lemma plainPiece_cases (st : State) (c : Char) (t : Text) :
    (∃ kind more, plainPiece st c t = lexeme kind more st ∧ kind ≠ .directive ∧
      kind ≠ .delimiter) ∨
    ∃ more fresh, plainPiece st c t = ⟨none, more, 0, { st with freshLine := fresh }⟩ ∧
      (fresh = false ∨ more = lineLength t) ∧ Comment (c :: t.take more) (t.drop more) := by
  induction c using first_cases with
  | dash =>
    rw [plainPiece_dash]
    split_ifs with h
    · obtain ⟨u, rfl⟩ := head?_eq_some_iff.mp h
      exact .inr ⟨_, st.freshLine, rfl, .inr rfl, comment_dashes u⟩
    · exact .inl ⟨_, _, rfl, by decide, by decide⟩
  | slash =>
    rw [plainPiece_slash]
    split_ifs with h
    · right
      obtain ⟨u, rfl⟩ := head?_eq_some_iff.mp h
      rw [drop_one, tail_cons]
      cases hb : beforeSub? ['*', '/'] u with
      | some inner => exact ⟨_, false, rfl, .inl rfl, comment_block hb⟩
      | none =>
        refine ⟨_, false, rfl, .inl rfl, ?_⟩
        rw [take_length, drop_length]
        exact .openBlock (beforeSub?_eq_none hb)
    · exact .inl ⟨_, _, rfl, by decide, by decide⟩
  | sharp =>
    rw [plainPiece_sharp]
    split_ifs with h
    · exact .inr ⟨_, st.freshLine, rfl, .inr rfl,
        comment_sharp (by simpa [Option.all_eq_true] using h)⟩
    · exact .inl ⟨_, _, rfl, by decide, by decide⟩
  -- no comment starts with another character
  | quote c hc => exact .inl ⟨_, _, plainPiece_quote st t hc, by split <;> decide⟩
  | bracket =>
    rw [plainPiece_bracket]
    split <;> exact .inl ⟨_, _, rfl, by decide, by decide⟩
  | dollar =>
    rw [plainPiece_dollar]
    split <;> exact .inl ⟨_, _, rfl, by decide, by decide⟩
  | other c hc =>
    rw [plainPiece_other _ _ hc]
    split_ifs <;> exact .inl ⟨_, _, rfl, by decide, by decide⟩

/-- A delimiter in force is not empty and free of white space. -/
def State.WellFormed (st : State) : Prop :=
  ∀ mark, st.delimiter = some mark → mark ≠ [] ∧ ∀ c ∈ mark, isBlank c = false

lemma State.wellFormed_init : ({} : State).WellFormed := by
  intro mark h
  cases h

lemma isBlank_of_mem_rest {d : Char} {line : Text} {n : Nat}
    (hline : line = trimEnd ((c :: t).take (lineLength (c :: t)))) (hn : n = line.length)
    (hpos : 0 < n) (hd : d ∈ (t.drop (n - 1)).take (lineLength (c :: t) - n)) :
    isBlank d = true := by
  obtain ⟨w, hw, hblank⟩ := exists_eq_trimEnd_append ((c :: t).take (lineLength (c :: t)))
  rw [← hline] at hw
  have hdrop : t.drop (n - 1) = (c :: t).drop n := by
    obtain ⟨m, rfl⟩ : ∃ m, n = m + 1 := ⟨n - 1, by omega⟩
    rfl
  rw [hdrop, ← drop_take, hw, hn, drop_left] at hd
  exact hblank d hd

/-- **Directives**: a batch line, behind which the rest of the line is dropped, or a line whose
second word is set as the delimiter. -/
lemma directive?_eq_some {p : Piece} (h : directive? st c t = some p) :
    let line := trimEnd ((c :: t).take (lineLength (c :: t)))
    (line ≠ [] ∧ (line = ['/'] ∨ ∃ first rest, words line = first :: rest ∧
        eqIgnoreCase first "GO".toList = true) ∧
      p = { lexeme .directive (line.length - 1) st with
        skip := lineLength (c :: t) - line.length }) ∨
    ∃ first mark more, words line = first :: mark :: more ∧
      eqIgnoreCase first "DELIMITER".toList = true ∧ ¬ mark.any isAsciiAlnum = true ∧
      p = lexeme .directive (((beforeSub? mark line).getD first).length + mark.length - 1)
        { st with delimiter := if mark = [';'] then none else some mark } := by
  unfold directive? at h
  extract_lets width line batch at h
  split_ifs at h with hslash
  · obtain rfl := some.inj h
    rw [show trimEnd _ = ['/'] from hslash]
    exact Or.inl ⟨cons_ne_nil _ _, Or.inl rfl, rfl⟩
  · split at h
    · next first rest hwords =>
      split_ifs at h with hgo hcount hdel
      · refine Or.inl ⟨fun hnil => ?_, Or.inr ⟨first, rest, hwords, hgo⟩, (some.inj h).symm⟩
        rw [show line = [] from hnil] at hwords
        cases hwords
      · split at h
        · next mark more =>
          by_cases halnum : mark.any isAsciiAlnum = true
          · rw [if_pos halnum] at h
            cases h
          · rw [if_neg halnum] at h
            exact Or.inr ⟨first, mark, more, hwords, hdel, halnum, (some.inj h).symm⟩
        · cases h
    · cases h

/-- A batch line keeps the delimiter and drops the white space behind it; any other directive sets
the delimiter to a word of its line, or to none, and drops nothing. -/
lemma directive?_cases {p : Piece} (h : directive? st c t = some p) :
    p.kind = some .directive ∧ (∀ d ∈ (t.drop p.more).take p.skip, isBlank d = true) ∧
      (p.state.delimiter = st.delimiter ∨ p.state.delimiter = none ∨
        ∃ line mark, mark ∈ words line ∧ p.state.delimiter = some mark) := by
  rcases directive?_eq_some h with ⟨hne, -, rfl⟩ | ⟨first, mark, more, hwords, -, -, rfl⟩
  · refine ⟨rfl, fun d hd => ?_, Or.inl rfl⟩
    exact isBlank_of_mem_rest rfl rfl (length_pos_iff.mpr hne) hd
  · refine ⟨rfl, by simp [lexeme], Or.inr ?_⟩
    by_cases hsemi : mark = [';']
    · exact Or.inl (if_pos hsemi)
    · exact Or.inr ⟨_, mark, by rw [hwords]; simp, if_neg hsemi⟩

/-- **Pieces**: white space, a directive of a script, the delimiter in force, or a plain piece. -/
lemma piece_cases (script : Bool) (st : State) (c : Char) (t : Text) : (isAsciiBlank c = true ∧
      piece script st c t = ⟨none, 0, 0, { st with freshLine := st.freshLine || c == '\n' }⟩) ∨
    (script = true ∧ st.freshLine = true ∧ directive? st c t = some (piece script st c t)) ∨
    (∃ mark, st.delimiter = some mark ∧ mark.isPrefixOf (c :: t) = true ∧
      piece script st c t = lexeme .delimiter (mark.length - 1) st) ∨
    piece script st c t = plainPiece st c t := by
  unfold piece
  by_cases hc : isAsciiBlank c = true
  · left
    rw [if_pos hc]
    exact ⟨hc, rfl⟩
  right
  rw [if_neg hc]
  dsimp only
  split
  · next p hp =>
    left
    split_ifs at hp with hs
    rw [Bool.and_eq_true] at hs
    exact ⟨hs.1, hs.2, hp⟩
  · next mark _ hd =>
    right
    split_ifs with hpre
    · exact Or.inl ⟨mark, hd, hpre, rfl⟩
    · exact Or.inr rfl
  · exact Or.inr (Or.inr rfl)

/-! ## Directives and other pieces -/

section Piece

variable {script : Bool} {st : State} {c : Char} {t : Text}

lemma directive?_of_kind (h : (piece script st c t).kind = some .directive) :
    script = true ∧ st.freshLine = true ∧ directive? st c t = some (piece script st c t) := by
  rcases piece_cases script st c t with ⟨-, hp⟩ | hp | ⟨mark, -, -, hp⟩ | hp
  · rw [hp] at h
    cases h
  · exact hp
  · rw [hp] at h
    cases h
  · rcases plainPiece_cases st c t with ⟨kind, more, hq, hne, -⟩ | ⟨more, fresh, hq, -⟩
    · rw [hp, hq] at h
      exact absurd (some.inj h) hne
    · rw [hp, hq] at h
      cases h

/-- **Other pieces** keep the delimiter in force, and nothing is dropped behind them. One without a
kind is one white space character or one whole comment. -/
lemma piece_of_not_directive (h : (piece script st c t).kind ≠ some .directive) :
    (piece script st c t).skip = 0 ∧ (piece script st c t).state.delimiter = st.delimiter ∧
      ((piece script st c t).kind = none → isBlank c = true ∧ (piece script st c t).more = 0 ∨
        Comment (c :: t.take (piece script st c t).more) (t.drop (piece script st c t).more)) := by
  rcases piece_cases script st c t with ⟨hc, hp⟩ | ⟨-, -, hp⟩ | ⟨mark, -, -, hp⟩ | hp
  · rw [hp]
    exact ⟨rfl, rfl, fun _ => Or.inl ⟨isBlank_of_isAsciiBlank hc, rfl⟩⟩
  · exact absurd (directive?_cases hp).1 h
  · rw [hp]
    exact ⟨rfl, rfl, nofun⟩
  · rw [hp]
    rcases plainPiece_cases st c t with ⟨kind, more, hq, -⟩ | ⟨more, fresh, hq, -, hcomment⟩
    · rw [hq]
      exact ⟨rfl, rfl, nofun⟩
    · rw [hq]
      exact ⟨rfl, rfl, fun _ => Or.inr hcomment⟩

/-- **Gaps**: a piece without a kind is one white space character or one whole comment, and nothing
is dropped behind it. -/
lemma piece_gap (h : (piece script st c t).kind = none) : (piece script st c t).skip = 0 ∧
      (isBlank c = true ∧ (piece script st c t).more = 0 ∨
        Comment (c :: t.take (piece script st c t).more) (t.drop (piece script st c t).more)) := by
  obtain ⟨hskip, -, hgap⟩ := piece_of_not_directive (by rw [h]; nofun)
  exact ⟨hskip, hgap h⟩

lemma piece_skip : ∀ d ∈ (t.drop (piece script st c t).more).take (piece script st c t).skip,
      isBlank d = true := by
  by_cases hk : (piece script st c t).kind = some .directive
  · exact (directive?_cases (directive?_of_kind hk).2.2).2.1
  · simp [(piece_of_not_directive hk).1]

lemma piece_delimiter (h : (piece script st c t).kind ≠ some .directive) :
    (piece script st c t).state.delimiter = st.delimiter :=
  (piece_of_not_directive h).2.1

lemma piece_wellFormed (h : st.WellFormed) : (piece script st c t).state.WellFormed := by
  intro mark hmark
  by_cases hk : (piece script st c t).kind = some .directive
  · rcases (directive?_cases (directive?_of_kind hk).2.2).2.2 with hd | hd | ⟨line, mark', hw, hd⟩
    · exact h mark (hd ▸ hmark)
    · rw [hd] at hmark
      cases hmark
    · obtain rfl : mark' = mark := some.inj (hd.symm.trans hmark)
      exact of_mem_words hw
  · exact h mark (piece_delimiter hk ▸ hmark)

lemma kind_piece_ne_directive (st : State) (c : Char) (t : Text) :
    (piece false st c t).kind ≠ some .directive := fun h => by
  cases (directive?_of_kind h).1

lemma skip_piece (st : State) (c : Char) (t : Text) : (piece false st c t).skip = 0 :=
  (piece_of_not_directive (kind_piece_ne_directive st c t)).1

end Piece

/-! ## Lines behind the text -/

section Newline

variable (t z : Text)

lemma lineLength_append_newline : lineLength (t ++ '\n' :: z) = lineLength t := by
  rw [lineLength, lineLength, takeWhile_append_stop (by decide)]

lemma lineLength_le : lineLength t ≤ t.length := (takeWhile_sublist _).length_le

lemma numberLength_append_newline : numberLength (t ++ '\n' :: z) = numberLength t := by
  rw [numberLength, numberLength, takeWhile_append_stop (by decide)]

lemma directive?_append_newline (st : State) (c : Char) :
    directive? st c (t ++ '\n' :: z) = directive? st c t := by
  unfold directive?
  dsimp only
  rw [← cons_append, lineLength_append_newline, take_append_of_le_length (lineLength_le (c :: t))]

lemma isPrefixOf_append_newline {mark : Text} (hmark : '\n' ∉ mark) :
    mark.isPrefixOf (t ++ '\n' :: z) = mark.isPrefixOf t := by
  rw [Bool.eq_iff_iff, isPrefixOf_iff_prefix, isPrefixOf_iff_prefix]
  refine ⟨fun h => ?_, fun h => h.trans (prefix_append t _)⟩
  rcases Nat.lt_or_ge t.length mark.length with hlt | hle
  · exfalso
    have hline : t ++ ['\n'] <+: mark := by
      refine prefix_of_prefix_length_le ⟨z, ?_⟩ h ?_
      · simp
      · rw [length_append, length_singleton]
        omega
    exact hmark (hline.subset (by simp))
  · exact prefix_of_prefix_length_le h (prefix_append t _) hle

end Newline

/-! ## Other text behind a piece -/

section Parts

variable {t v x tag : Text}

lemma takeWhile_append_of_head? {p : Char → Bool} (hv : ∀ c ∈ v.head?, p c = false) (t : Text) :
    (t ++ v).takeWhile p = t.takeWhile p := by
  cases v with
  | nil => rw [append_nil]
  | cons d v => exact takeWhile_append_stop (hv d rfl) t v

lemma dollarTag?_append_of_head? (hv : ∀ c ∈ v.head?, isTagChar c = false ∧ c ≠ '$') :
    dollarTag? (t ++ v) = dollarTag? t := by
  unfold dollarTag?
  rw [takeWhile_append_of_head? fun c hc => (hv c hc).1]
  dsimp only
  rw [drop_append_of_le_length (takeWhile_sublist _).length_le, head?_append]
  cases (t.drop (t.takeWhile isTagChar).length).head? with
  | some e => rfl
  | none =>
    have : ¬ v.head? = some '$' := fun h => (hv '$' h).2 rfl
    simp [this]

lemma bracketLength?_append_of_mem (ht : ∃ c ∈ t, c = ']' ∨ c = '\n') (v : Text) :
    bracketLength? (t ++ v) = bracketLength? t := by
  obtain ⟨c, hc, hstop⟩ := ht
  have hlt : (t.takeWhile fun c => c != ']' && c != '\n').length < t.length := by
    by_contra hge
    have hall := takeWhile_prefix (l := t) (fun c => c != ']' && c != '\n')
    have heq := hall.eq_of_length_le (by omega)
    rw [← heq] at hc
    have := mem_takeWhile_imp hc
    rcases hstop with rfl | rfl <;> simp at this
  have hsame : (t ++ v).takeWhile (fun c => c != ']' && c != '\n') =
      t.takeWhile fun c => c != ']' && c != '\n' := by
    rw [takeWhile_append, if_neg (by omega)]
  unfold bracketLength?
  rw [hsame]
  dsimp only
  rw [drop_append_of_le_length (by omega), head?_append_of_ne_nil]
  rw [ne_eq, drop_eq_nil_iff]
  omega

lemma bracketLength?_of_open (ht : ¬ ∃ c ∈ t, c = ']' ∨ c = '\n') : bracketLength? t = none ∧
      ∀ n ∈ bracketLength? (t ++ v), t.length < n ∧ ']' ∈ v.take (lineLength v) := by
  have hall : ∀ c ∈ t, (c != ']' && c != '\n') = true := fun c hc => by
    simpa using fun h => ht ⟨c, hc, h⟩
  refine ⟨by simp [bracketLength?, takeWhile_eq_self_iff.mpr hall], fun n hn => ?_⟩
  rw [mem_def, bracketLength?, takeWhile_append_of_pos hall] at hn
  set inner := v.takeWhile fun c => c != ']' && c != '\n' with hinner
  have hline : ∀ c ∈ inner ++ [']'], (c != '\n') = true := by
    intro c hc
    rcases mem_append.mp hc with hc | hc
    · exact (Bool.and_eq_true _ _ ▸ mem_takeWhile_imp hc).2
    · rw [mem_singleton.mp hc]
      rfl
  split_ifs at hn with hclosed
  rw [Bool.and_eq_true, length_append, ← drop_drop, drop_left, beq_iff_eq] at hclosed
  obtain ⟨w, hw⟩ := head?_eq_some_iff.mp hclosed.2
  have hv : v = (inner ++ [']']) ++ w := by
    rw [append_assoc, singleton_append, ← hw, hinner, ← take_length_takeWhile,
      length_take_of_le (takeWhile_sublist _).length_le, take_append_drop]
  constructor
  · rw [← some.inj hn, length_append]
    omega
  · rw [lineLength, take_length_takeWhile, hv, takeWhile_append_of_pos hline]
    simp

lemma bracketLength?_of_append (h : ∀ n ∈ bracketLength? (t ++ v), n ≤ t.length) :
    bracketLength? t = bracketLength? (t ++ v) := by
  by_cases ht : ∃ c ∈ t, c = ']' ∨ c = '\n'
  · exact (bracketLength?_append_of_mem ht v).symm
  · obtain ⟨hnone, hlong⟩ := bracketLength?_of_open (v := v) ht
    rw [hnone, eq_comm, eq_none_iff_forall_not_mem]
    exact fun n hn => absurd (h n hn) (Nat.not_le.mpr (hlong n hn).1)

lemma bracketLength?_append (hv : ']' ∉ v.take (lineLength v)) :
    bracketLength? (t ++ v) = bracketLength? t := by
  by_cases ht : ∃ c ∈ t, c = ']' ∨ c = '\n'
  · exact bracketLength?_append_of_mem ht v
  · obtain ⟨hnone, hlong⟩ := bracketLength?_of_open (v := v) ht
    rw [hnone, eq_none_iff_forall_not_mem]
    exact fun n hn => hv (hlong n hn).2

lemma wordLength_append_le (hv : wordLength v = 0) (t : Text) : wordLength (t ++ v) ≤ t.length := by
  induction t with
  | nil => exact Nat.le_of_eq hv
  | cons c t ih =>
    rw [cons_append, wordLength, length_cons]
    split_ifs <;> omega

/-- A word that ends in the first part of a text. A dollar sign before the cut belongs to it, unless
another stands behind the cut. -/
lemma wordLength_of_append (h : wordLength (t ++ v) ≤ t.length)
    (hd : v.head? = some '$' → t.drop (wordLength (t ++ v)) ≠ ['$']) :
    wordLength t = wordLength (t ++ v) := by
  induction t with
  | nil => exact (Nat.le_zero.mp h).symm
  | cons c t ih =>
    rw [cons_append, wordLength] at h hd ⊢
    rw [wordLength]
    have hnext : ¬ (c = '$' ∧ t = [] ∧ v.head? = some '$') := by
      rintro ⟨rfl, rfl, hv⟩
      apply hd hv
      simp [hv, isAsciiAlnum, isAsciiAlpha, isAsciiDigit, isWide]
    have hsame : (c == '$' && (t ++ v).head? != some '$') = (c == '$' && t.head? != some '$') := by
      cases t with
      | cons d t => rfl
      | nil =>
        by_cases hc : c = '$'
        · have hv : v.head? ≠ some '$' := fun hv => hnext ⟨hc, rfl, hv⟩
          rw [nil_append, bne_iff_ne.mpr hv]
          rfl
        · rw [beq_eq_false_iff_ne.mpr hc, Bool.false_and, Bool.false_and]
    rw [hsame] at h hd ⊢
    split_ifs at h hd ⊢ with hc
    · rw [ih (Nat.le_of_succ_le_succ h) hd]
    · rfl

lemma wordLength_append_newline (t z : Text) : wordLength (t ++ '\n' :: z) = wordLength t := by
  have hzero : wordLength ('\n' :: z) = 0 := by
    simp [wordLength, isAsciiAlnum, isAsciiAlpha, isAsciiDigit, isWide]
  exact (wordLength_of_append (wordLength_append_le hzero t) (by simp)).symm

lemma quotedLength_pos {quote : Char} (hx : x ≠ []) : 0 < quotedLength quote x := by
  obtain ⟨d, y, rfl⟩ := exists_cons_of_ne_nil hx
  rw [quotedLength.eq_def]
  dsimp only
  split_ifs
  · split
    · split_ifs <;> omega
    · omega
  · omega

/-- A quoted run that is closed before the end of a text is as long with other text behind, unless
only that starts with the quote. -/
lemma quotedLength_append_congr {quote : Char} (hx : x ≠ [])
    (h : quotedLength quote (t ++ x) ≤ t.length)
    (hv : v.head? = some quote → x.head? = some quote) :
    quotedLength quote (t ++ v) = quotedLength quote (t ++ x) := by
  fun_induction quotedLength quote t with
  | case1 => exact absurd h (Nat.not_le.mpr (quotedLength_pos hx))
  | case2 u ih =>
    simp only [cons_append, quotedLength, if_true, length_cons] at h ⊢
    rw [ih (by omega)]
  | case3 d u hd => simp only [cons_append, quotedLength, if_true, if_neg hd]
  | case4 =>
    -- the run is closed at the end of the text, where no quote follows
    obtain ⟨d, y, rfl⟩ := exists_cons_of_ne_nil hx
    have hd : d ≠ quote := by
      rintro rfl
      simp [quotedLength] at h
    cases v with
    | nil => simp [quotedLength, hd]
    | cons e v =>
      have he : e ≠ quote := fun he => hd (some.inj (hv (he ▸ rfl)))
      simp [quotedLength, hd, he]
  | case5 c t hc ih =>
    rw [cons_append, quotedLength.eq_def] at h ⊢
    rw [cons_append, quotedLength.eq_def quote (c :: (t ++ x))]
    simp only [if_neg hc, length_cons] at h ⊢
    rw [ih (by omega)]

lemma beforeSub?_of_append {needle u : Text} (h : beforeSub? needle (t ++ v) = some u)
    (hlen : u.length + needle.length ≤ t.length) : beforeSub? needle t = some u := by
  induction t generalizing u with
  | nil =>
    rw [length_nil] at hlen
    obtain rfl : needle = [] := length_eq_zero_iff.mp (by omega)
    obtain rfl : u = [] := length_eq_zero_iff.mp (by omega)
    rfl
  | cons c t ih =>
    rw [cons_append, beforeSub?] at h
    rw [beforeSub?]
    split at h
    · next hp =>
      obtain rfl : [] = u := by simpa using h
      have hp' : needle.isPrefixOf (c :: t) = true := by
        rw [← cons_append, isPrefixOf_iff_prefix] at hp
        exact isPrefixOf_iff_prefix.mpr <|
          prefix_of_prefix_length_le hp (prefix_append _ v) (by simpa using hlen)
      rw [if_pos hp']
    · next hp =>
      obtain ⟨w, hw, rfl⟩ := map_eq_some_iff.mp h
      have hp' : ¬ needle.isPrefixOf (c :: t) = true := by
        intro hpre
        apply hp
        have hpre := isPrefixOf_iff_prefix.mp hpre
        exact isPrefixOf_iff_prefix.mpr <| hpre.trans (prefix_append (c :: t) v)
      rw [if_neg hp', ih hw (by simp only [length_cons] at hlen; omega), map_some]

lemma length_le_of_dollarTag? (h : dollarTag? t = some tag) : tag.length ≤ t.length := by
  unfold dollarTag? at h
  dsimp only at h
  split_ifs at h with hdigit hdollar
  obtain rfl := some.inj h
  rw [drop_length_takeWhile, beq_iff_eq] at hdollar
  obtain ⟨r, hr⟩ := head?_eq_some_iff.mp hdollar
  conv_rhs => rw [← takeWhile_append_dropWhile (p := isTagChar) (l := t), hr]
  simp only [length_append, length_cons, length_nil]
  omega

lemma length_tag_le_dollarLength (h : dollarTag? t = some tag) :
    tag.length ≤ dollarLength tag t := by
  unfold dollarLength
  dsimp only
  split
  · omega
  · exact length_le_of_dollarTag? h

lemma dollarLength_append_congr (htag : tag.length ≤ t.length) (hx : x ≠ [])
    (h : dollarLength tag (t ++ x) ≤ t.length) (v : Text) :
    dollarLength tag (t ++ v) = dollarLength tag (t ++ x) := by
  have hxlen := length_pos_iff.mpr hx
  unfold dollarLength at h ⊢
  dsimp only at h ⊢
  rw [drop_append_of_le_length htag] at h ⊢
  rw [drop_append_of_le_length htag]
  cases hb : beforeSub? ('$' :: tag) (t.drop tag.length ++ x) with
  | none =>
    rw [hb] at h
    dsimp only at h
    rw [length_append] at h
    omega
  | some inner =>
    rw [hb] at h
    dsimp only at h
    have hin : beforeSub? ('$' :: tag) (t.drop tag.length) = some inner := by
      apply beforeSub?_of_append hb
      rw [length_drop, length_cons]
      omega
    rw [beforeSub?_append hin]

end Parts

/-! ## Pieces, by their first character -/

/-- **Plain pieces and what follows them**: a plain piece is the same with other text behind it, if
the parts are of which it consists.

**Proof sketch.** By the first character of the piece. A literal, a dollar body or a block comment
that ends before the other text has been closed, and the other text does not double its closing
quote. A dash or a slash before the other text starts no comment. -/
lemma plainPiece_append_congr {u v : Text} (hu : u ≠ [])
    (h : (plainPiece st c (t ++ u)).more ≤ t.length)
    (hhead : ∀ d ∈ ['-', '*', '\'', '"', '`'], v.head? = some d → u.head? = some d)
    (hsharp : c = '#' → t = [] → (v.head?.all fun d => isAsciiBlank d || d == '#') =
      u.head?.all fun d => isAsciiBlank d || d == '#')
    (hline : (plainPiece st c (t ++ u)).kind = none →
      (plainPiece st c (t ++ u)).more = lineLength (t ++ u) →
      lineLength (t ++ v) = lineLength (t ++ u))
    (hbracket : c = '[' → (∀ n ∈ bracketLength? (t ++ u), n ≤ t.length) →
      bracketLength? (t ++ v) = bracketLength? (t ++ u))
    (htag : st.delimiter = none → (∀ tag ∈ dollarTag? (t ++ u), tag.length ≤ t.length) →
      dollarTag? (t ++ v) = dollarTag? (t ++ u))
    (hnumber : numberLength (t ++ u) ≤ t.length → numberLength (t ++ v) = numberLength (t ++ u))
    (hword : (plainPiece st c (t ++ u)).more = wordLength (t ++ u) →
      wordLength (t ++ v) = wordLength (t ++ u)) :
    plainPiece st c (t ++ v) = plainPiece st c (t ++ u) := by
  -- a comment that starts with the second character would reach over the text
  have hsecond {d : Char} (hd : d ∈ ['-', '*', '\'', '"', '`'])
      (hnot : u.head? = some d → t ≠ []) :
      (t ++ v).head? = some d ↔ (t ++ u).head? = some d := by
    cases t with
    | cons e t => exact Iff.rfl
    | nil => exact ⟨hhead d hd, fun h => absurd rfl (hnot h)⟩
  induction c using first_cases with
  | dash =>
    rw [plainPiece_dash] at h hline ⊢
    rw [plainPiece_dash]
    refine ite_congr (propext (hsecond (by simp) fun hd ht => ?_)) (fun hd => ?_) fun _ => rfl
    · obtain ⟨w, rfl⟩ := head?_eq_some_iff.mp hd
      simp [ht, lineLength] at h
    · rw [if_pos hd] at hline
      rw [hline rfl rfl]
  | slash =>
    rw [plainPiece_slash] at h ⊢
    rw [plainPiece_slash]
    have hstar : u.head? = some '*' → t ≠ [] := by
      rintro hd rfl
      obtain ⟨w, rfl⟩ := head?_eq_some_iff.mp hd
      rw [nil_append, if_pos hd] at h
      split at h <;> simp at h
    refine ite_congr (propext (hsecond (by simp) hstar)) (fun hd => ?_) fun _ => rfl
    rw [if_pos hd] at h
    cases t with
    | nil => exact absurd rfl (hstar hd)
    | cons e s =>
      rw [cons_append, drop_one, tail_cons] at h ⊢
      rw [cons_append, drop_one, tail_cons]
      have hpos := length_pos_iff.mpr hu
      cases hb : beforeSub? ['*', '/'] (s ++ u) with
      | none =>
        rw [hb] at h
        simp only [length_cons, length_append] at h
        omega
      | some inner =>
        rw [hb] at h
        have hin : beforeSub? ['*', '/'] s = some inner := by
          apply beforeSub?_of_append hb
          simp only [length_cons, length_nil] at h ⊢
          omega
        rw [beforeSub?_append hin]
  | sharp =>
    rw [plainPiece_sharp] at h hline hword ⊢
    rw [plainPiece_sharp]
    have hnext : ((t ++ v).head?.all fun d => isAsciiBlank d || d == '#') =
        (t ++ u).head?.all fun d => isAsciiBlank d || d == '#' := by
      cases t with
      | cons e t => rfl
      | nil => exact hsharp rfl rfl
    refine ite_congr (by rw [hnext]) (fun hd => ?_) fun hd => ?_
    · rw [if_pos hd] at hline
      rw [hline rfl rfl]
    · rw [if_neg hd] at hword
      rw [hword rfl]
  | quote c hc =>
    rw [plainPiece_quote _ _ hc] at h ⊢
    rw [plainPiece_quote _ _ hc, quotedLength_append_congr hu h (hhead c (by simp_all))]
  | bracket =>
    rw [plainPiece_bracket] at h ⊢
    rw [plainPiece_bracket, hbracket rfl]
    intro n hn
    rw [mem_def.mp hn] at h
    exact h
  | dollar =>
    rw [plainPiece_dollar] at h ⊢
    rw [plainPiece_dollar]
    cases hst : st.delimiter with
    | some mark => rfl
    | none =>
      rw [hst] at h
      have hlen : ∀ tag ∈ dollarTag? (t ++ u), tag.length ≤ t.length := by
        intro tag htag
        rw [mem_def.mp htag] at h
        exact (length_tag_le_dollarLength htag).trans h
      rw [htag hst hlen]
      cases ht : dollarTag? (t ++ u) with
      | none => rfl
      | some tag =>
        rw [ht] at h
        exact congrArg (lexeme _ · st) (dollarLength_append_congr (hlen tag ht) hu h v)
  | other c hc =>
    rw [plainPiece_other _ _ hc] at h hword ⊢
    rw [plainPiece_other _ _ hc]
    split_ifs at h hword ⊢
    · rw [hnumber h]
    · rw [hword rfl]
    · rfl

/-- **Plain pieces and the lines behind the text**: a plain piece that ends before the end of the
text does not depend on the lines that follow. -/
lemma plainPiece_append_newline (h : (plainPiece st c t).more < t.length) (z : Text) :
    plainPiece st c (t ++ '\n' :: z) = plainPiece st c t := by
  have hne : t ≠ [] := by
    rintro rfl
    simp at h
  obtain ⟨s, d, rfl⟩ : ∃ s d, t = s ++ [d] :=
    ⟨t.dropLast, t.getLast hne, (dropLast_append_getLast hne).symm⟩
  have happend : s ++ [d] ++ '\n' :: z = s ++ d :: '\n' :: z := by simp
  rw [length_append, length_singleton] at h
  rw [happend]
  refine plainPiece_append_congr (by simp) (by omega) (fun _ _ h => h) (fun _ _ => rfl)
    (fun _ _ => ?_) (fun _ _ => ?_) (fun _ _ => ?_) (fun _ => ?_) fun _ => ?_
  all_goals rw [← happend]
  · exact lineLength_append_newline _ _
  · exact bracketLength?_append (by simp [lineLength])
  · exact dollarTag?_append_of_head? (by rintro _ ⟨⟩; decide)
  · exact numberLength_append_newline _ _
  · exact wordLength_append_newline _ _

lemma piece_congr {script : Bool} {x y : Text}
    (hdir : isAsciiBlank c = false → script → st.freshLine →
      directive? st c x = directive? st c y) (hmark : ∀ mark, st.delimiter = some mark →
      mark.isPrefixOf (c :: x) = mark.isPrefixOf (c :: y))
    (hplain : piece script st c y = plainPiece st c y → plainPiece st c x = plainPiece st c y) :
    piece script st c x = piece script st c y := by
  revert hplain
  unfold piece
  by_cases hc : isAsciiBlank c
  · rw [if_pos hc, if_pos hc]
    exact fun _ => rfl
  have hline : (if (script && st.freshLine) = true then directive? st c x else none) =
      if (script && st.freshLine) = true then directive? st c y else none := by
    refine ite_congr rfl (fun hs => ?_) fun _ => rfl
    rw [Bool.and_eq_true] at hs
    exact hdir (Bool.not_eq_true _ ▸ hc) hs.1 hs.2
  rw [if_neg hc, if_neg hc, hline]
  dsimp only
  cases (if (script && st.freshLine) = true then directive? st c y else none) with
  | some p => exact fun _ => rfl
  | none =>
    cases hd : st.delimiter with
    | none => exact fun hplain => hplain rfl
    | some mark =>
      dsimp only
      rw [hmark mark hd]
      split_ifs with hm
      · exact fun _ => rfl
      · exact fun hplain => hplain rfl

/-- **Pieces and the lines behind the text**: a piece that ends before the end of the text does not
depend on the lines that follow. -/
lemma piece_append_newline {script : Bool}
    (hst : st.WellFormed) (h : (piece script st c t).more < t.length) (z : Text) :
    piece script st c (t ++ '\n' :: z) = piece script st c t := by
  refine piece_congr (fun _ _ _ => directive?_append_newline _ _ _ _) (fun mark hmark => ?_)
    fun hp => plainPiece_append_newline (hp ▸ h) z
  have hno : '\n' ∉ mark := fun hmem => absurd ((hst mark hmark).2 _ hmem) (by decide)
  rw [← cons_append, isPrefixOf_append_newline _ _ hno]

end SqlOutline.Scan
