import SqlOutline.Proofs.Lexeme.Directive

/-!
# What follows a text

The scanner looks ahead: a quote is closed by one that no other quote follows, and a dash starts a
comment with the next character.

## Main definitions

* `BreaksLine`, `Unglued`, `Loose` — texts that continue no lexeme before them.

## Main results

* `append_of_breaksLine` — up to a line feed, a run does not depend on what follows.
* `exists_run_append_of_separates` — nor does it up to separating text.
-/

namespace SqlOutline.Scan

open Bool List Text

/-! ## Text that continues no lexeme -/

/-- Text that starts with a line feed, or no text at all. -/
def BreaksLine (v : Text) : Prop := ∀ c ∈ v.head?, c = '\n'

/-- A character that can continue a lexeme before it or make a comment of it. The dollar sign and
the closing bracket have rules of their own. -/
def isSticky (c : Char) : Bool :=
  isAsciiAlnum c || isWide c || ['_', '#', '@', '.', '\'', '"', '`', '-', '*'].contains c

/-- Text that does not start with a character that continues a lexeme before it. A dollar sign at
its start is doubled. -/
structure Unglued (v : Text) : Prop where
  head : ∀ c ∈ v.head?, isSticky c = false
  dollar : v.head? = some '$' → (v.drop 1).head? = some '$'

/-- Text that continues no lexeme before it: it does not start with a character that does, and no
bracket is closed on its first line. -/
structure Loose (v : Text) : Prop extends Unglued v where
  bracket : ']' ∉ v.take (lineLength v)

variable {v t : Text} {c : Char} {st : State}

lemma BreaksLine.loose (h : BreaksLine v) : Loose v := by
  cases v with
  | nil => exact ⟨⟨by simp, by simp⟩, by simp⟩
  | cons c v =>
    obtain rfl : c = '\n' := h c rfl
    refine ⟨⟨fun c hc => ?_, fun hd => ?_⟩, ?_⟩
    · obtain rfl : '\n' = c := Option.some.inj hc
      decide
    · cases Option.some.inj hd
    · simp [lineLength]

lemma Unglued.head?_ne (h : Unglued v) (hc : isSticky c = true) : v.head? ≠ some c := by
  intro hv
  rw [h.head c hv] at hc
  cases hc

/-! ## The parts of a piece -/

section Parts

variable {t v x : Text}

lemma mem_of_lineLength_lt (h : lineLength t < t.length) : '\n' ∈ t := by
  by_contra hno
  rw [lineLength_of_not_mem hno] at h
  exact Nat.lt_irrefl _ h

lemma lineLength_append_of_mem (h : '\n' ∈ t) (v : Text) : lineLength (t ++ v) = lineLength t := by
  obtain ⟨s, u, rfl⟩ := append_of_mem h
  rw [append_assoc, cons_append, lineLength_append_newline, lineLength_append_newline]

lemma lineLength_append_of_breaksLine (hv : BreaksLine v) (t : Text) :
    lineLength (t ++ v) = lineLength t := by
  rw [lineLength, lineLength, takeWhile_append_of_head?]
  intro c hc
  rw [hv c hc]
  rfl

lemma Loose.bracketLength?_eq (hv : Loose v) (t y : Text) :
    bracketLength? (t ++ v) = bracketLength? (t ++ '\n' :: y) := by
  rw [bracketLength?_append hv.bracket,
    bracketLength?_append (v := '\n' :: y) (by simp [lineLength])]

lemma wordLength_append_of_unglued (hv : Unglued v)
    (hd : v.head? = some '$' → t.getLast? ≠ some '$') : wordLength (t ++ v) = wordLength t := by
  have hzero : wordLength v = 0 := by
    cases v with
    | nil => rfl
    | cons c v =>
      have hc := hv.head c rfl
      have hdollar : c = '$' → v.head? = some '$' := by
        rintro rfl
        exact hv.dollar rfl
      rw [wordLength, if_neg]
      simp only [isSticky, or_eq_false_iff, contains_cons, contains_nil, beq_eq_false_iff_ne] at hc
      simpa [hc] using hdollar
  refine (wordLength_of_append (wordLength_append_le hzero t) fun h hlast => hd h ?_).symm
  rw [← take_append_drop (wordLength (t ++ v)) t, hlast, getLast?_concat]

end Parts

/-! ## Pieces -/

/-- **Plain pieces before unglued text**: a plain piece that ends before a line feed is the same
before unglued text, if a bracket is. A comment has to end earlier, unless the unglued text starts
with a line feed too.

**Proof sketch.** Words, numbers and tags end before a line feed as before unglued text. A line
comment that ends earlier ends at a line feed of its own. -/
lemma plainPiece_append_of_unglued {y : Text}
    (h : (plainPiece st c (t ++ '\n' :: y)).more ≤ t.length)
    (hgap : (plainPiece st c (t ++ '\n' :: y)).kind = none →
      (plainPiece st c (t ++ '\n' :: y)).more < t.length ∨ BreaksLine v) (hv : Unglued v)
    (hbracket : c = '[' → bracketLength? (t ++ v) = bracketLength? (t ++ '\n' :: y))
    (hdollar : v.head? = some '$' → st.delimiter ≠ none ∧ t.getLast? ≠ some '$') :
    plainPiece st c (t ++ v) = plainPiece st c (t ++ '\n' :: y) := by
  have hsticky (p : Char → Bool) (hp : ∀ c, p c = true → isSticky c = true) :
      ∀ e ∈ v.head?, p e = false := by
    intro e he
    by_contra hpe
    exact hv.head?_ne (hp e (by simpa using hpe)) he
  refine plainPiece_append_congr (by simp) h (fun d hd hvd => ?_) (fun hs ht => ?_)
    (fun hk hm => ?_) (fun hc _ => hbracket hc) (fun hst _ => ?_) (fun _ => ?_) fun _ => ?_
  · have hstick : ∀ d ∈ ['-', '*', '\'', '"', '`'], isSticky d := by decide
    exact absurd hvd (hv.head?_ne (hstick d hd))
  · subst hs ht
    rcases hgap rfl with hlt | hbreak
    · simp at hlt
    · cases v with
      | nil => rfl
      | cons e v =>
        obtain rfl : e = '\n' := hbreak e rfl
        rfl
  · rw [lineLength_append_newline] at hm ⊢
    rcases hgap hk with hlt | hbreak
    · exact lineLength_append_of_mem (mem_of_lineLength_lt (by omega)) v
    · exact lineLength_append_of_breaksLine hbreak t
  · rw [dollarTag?_append_of_head? (v := '\n' :: y) (by rintro _ ⟨⟩; decide)]
    refine dollarTag?_append_of_head? fun e he => ⟨hsticky isTagChar (fun c hc => ?_) e he, ?_⟩
    · simp only [isTagChar, or_eq_true, beq_iff_eq] at hc
      rcases hc with hc | rfl
      · simp [isSticky, hc]
      · decide
    · rintro rfl
      exact (hdollar he).1 hst
  · rw [numberLength_append_newline, numberLength, numberLength,
      takeWhile_append_of_head? (hsticky _ fun c hc => ?_)]
    simp only [or_eq_true, beq_iff_eq] at hc
    rcases hc with (hc | rfl) | rfl
    · simp [isSticky, hc]
    · decide
    · decide
  · rw [wordLength_append_newline, wordLength_append_of_unglued hv fun h => (hdollar h).2]

/-- **Pieces before unglued text**: a piece that ends before a line feed is the same before unglued
text, if brackets, directives and delimiters are. -/
lemma piece_append_of_unglued {script : Bool} {y : Text}
    (h : (piece script st c (t ++ '\n' :: y)).more ≤ t.length)
    (hgap : (piece script st c (t ++ '\n' :: y)).kind = none →
      (piece script st c (t ++ '\n' :: y)).more < t.length ∨ BreaksLine v) (hv : Unglued v)
    (hbracket : c = '[' → bracketLength? (t ++ v) = bracketLength? (t ++ '\n' :: y))
    (hdollar : v.head? = some '$' → st.delimiter ≠ none ∧ t.getLast? ≠ some '$')
    (hdir : isAsciiBlank c = false → script → st.freshLine →
      directive? st c (t ++ v) = directive? st c (t ++ '\n' :: y))
    (hmark : ∀ mark, st.delimiter = some mark →
      mark.isPrefixOf (c :: (t ++ v)) = mark.isPrefixOf (c :: (t ++ '\n' :: y))) :
    piece script st c (t ++ v) = piece script st c (t ++ '\n' :: y) :=
  piece_congr hdir hmark fun hp =>
    plainPiece_append_of_unglued (hp ▸ h) (hp ▸ hgap) hv hbracket hdollar

/-! ## Runs -/

namespace Run

variable {script : Bool} {st st' : State} {i j : Nat} {c : Char} {t u v : Text} {ls : List Lexeme}

/-- **Another end of the text**: a run that does not reach the end `u` of the text is the same with
the end `v`, if every piece on the way is.

What is known on the way, about the state, the text that is left and the lexemes to come, is kept
in `P`. -/
lemma append_congr {r : Text} {P : State → Text → List Lexeme → Prop}
    (hpiece : ∀ {st i c t ls p}, piece script st c (t ++ u) = p →
      P st (c :: t) (p.lexemes i c t ++ ls) → p.width + r.length ≤ t.length →
      piece script st c (t ++ v) = p ∧ P p.state (t.drop p.width) ls)
    (h : Run script st i (t ++ u) ls st' j (r ++ u)) (hu : u ≠ []) (hP : P st t ls) :
    Run script st i (t ++ v) ls st' j (r ++ v) := by
  have hpos := length_pos_iff.mpr hu
  generalize hx : t ++ u = x at h
  induction h using step_induction generalizing t with
  | refl =>
    rw [append_cancel_right hx]
    exact .refl _ _ _
  | step st i c s ls h ih =>
    have hle := h.length_le
    cases t with
    | nil =>
      rw [length_drop, length_append, show u = c :: s from hx, length_cons] at hle
      omega
    | cons d t =>
      obtain ⟨rfl, rfl⟩ := cons.inj (cons_append ▸ hx)
      obtain ⟨p, hp⟩ : ∃ p, piece script st d (t ++ u) = p := ⟨_, rfl⟩
      rw [hp] at hle ih hP ⊢
      rw [length_drop, length_append, length_append] at hle
      have hwidth : p.width ≤ t.length := by omega
      have hmore := p.more_le_width
      rw [Piece.lexemes, take_append_of_le_length (by omega)] at hP ⊢
      obtain ⟨hsame, hnext⟩ := hpiece hp hP (by omega)
      rw [take_append_of_le_length hwidth, drop_append_of_le_length hwidth] at ih
      exact (ih hnext rfl).step_append hsame hwidth

/-- **Up to a line feed**, a run does not depend on what follows: the lexemes are the same before
another line feed or at the end of the text. -/
lemma append_of_breaksLine {r y : Text}
    (h : Run script st i (t ++ '\n' :: y) ls st' j (r ++ '\n' :: y)) (hst : st.WellFormed)
    (hv : BreaksLine v) : Run script st i (t ++ v) ls st' j (r ++ v) := by
  have hcases : v = [] ∨ ∃ z, v = '\n' :: z := by
    cases v with
    | nil => exact Or.inl rfl
    | cons d v => exact Or.inr ⟨v, by rw [hv d rfl]⟩
  refine append_congr (P := fun st _ _ => st.WellFormed) ?_ h (by simp) hst
  rintro st i c t ls _ rfl hst hlen
  have hmore := (piece script st c (t ++ '\n' :: y)).more_le_width
  refine ⟨?_, piece_wellFormed hst⟩
  refine piece_append_of_unglued (by omega) (fun _ => Or.inr hv) hv.loose.toUnglued
    (fun _ => hv.loose.bracketLength?_eq t y) (fun hd => ?_) (fun _ _ _ => ?_) fun mark hmark => ?_
  · rcases hcases with rfl | ⟨z, rfl⟩
    · cases hd
    · cases Option.some.inj hd
  · rw [directive?_append_newline]
    rcases hcases with rfl | ⟨z, rfl⟩
    · rw [append_nil]
    · rw [directive?_append_newline]
  · have hno : '\n' ∉ mark := by
      intro hmem
      have := (hst mark hmark).2 _ hmem
      revert this
      decide
    rw [← cons_append, ← cons_append, isPrefixOf_append_newline _ _ hno]
    rcases hcases with rfl | ⟨z, rfl⟩
    · rw [append_nil]
    · rw [isPrefixOf_append_newline _ _ hno]

end Run

/-! ## Text behind a lexeme -/

/-- Text that is put behind a lexeme: loose text whose first line is not empty and has neither
letters, digits nor white space. -/
structure Separates (v : Text) : Prop extends Loose v where
  exists_line : ∃ w r, v = w ++ r ∧ w ≠ [] ∧ BreaksLine r ∧
    ∀ d ∈ w, isBlank d = false ∧ isAsciiAlnum d = false

lemma Separates.exists_cons (hv : Separates v) : ∃ d y, v = d :: y ∧ isBlank d = false := by
  obtain ⟨w, r, rfl, hne, -, hw⟩ := hv.exists_line
  obtain ⟨d, y, rfl⟩ := exists_cons_of_ne_nil hne
  exact ⟨d, y ++ r, rfl, (hw d mem_cons_self).1⟩

lemma directive?_append_of_separates (hv : Separates v)
    (h : directive? st c t = none) (hc : c ≠ '\n')
    (hlast : ∀ d ∈ (c :: t).getLast?, isBlank d = false) : directive? st c (t ++ v) = none := by
  obtain ⟨w, r, rfl, hne, hr, hw⟩ := hv.exists_line
  have hnone := directive?_append_eq_none h hc hlast hne hw
  cases r with
  | nil => rwa [append_nil]
  | cons d r =>
    obtain rfl : d = '\n' := hr d rfl
    rw [← append_assoc, directive?_append_newline, hnone]

section Separates

variable {st st' : State} {i j : Nat} {t u v y : Text} {ls : List Lexeme}

/-- What has to hold of a text, so that separating text can be put behind it: it does not end in
white space, nor in a dollar sign that the separating text could double; and the delimiter in force
is not found earlier than before. -/
structure Joins (mark : Option Text) (t v y : Text) : Prop where
  last : ∀ d ∈ t.getLast?, isBlank d = false
  dollar : v.head? = some '$' → mark ≠ none ∧ t.getLast? ≠ some '$'
  mark_eq : ∀ m, mark = some m → ∀ s ≠ [], s <:+ t →
    m.isPrefixOf (s ++ v) = m.isPrefixOf (s ++ '\n' :: y)

variable {c : Char} {r : Text}

lemma Joins.of_suffix {mark : Option Text} (h : Joins mark t v y) (hu : u ≠ []) (hsuf : u <:+ t) :
    Joins mark u v y := by
  have hlast : u.getLast? = t.getLast? := by
    obtain ⟨x, rfl⟩ := hsuf
    rw [getLast?_append_of_ne_nil _ hu]
  refine ⟨?_, ?_, fun m hm s hs hsu => h.mark_eq m hm s hs (hsu.trans hsuf)⟩
  · rw [hlast]
    exact h.last
  · rw [hlast]
    exact h.dollar

/-- **A piece before separating text** is the same as before a line feed, if it is no directive and
reaches up to the separating text only as a lexeme. -/
lemma piece_append_of_separates (hv : Separates v) (hj : Joins st.delimiter (c :: t) v y)
    (hkind : (piece true st c (t ++ '\n' :: y)).kind ≠ some .directive)
    (hlen : (piece true st c (t ++ '\n' :: y)).more ≤ t.length)
    (hgap : (piece true st c (t ++ '\n' :: y)).kind = none →
      (piece true st c (t ++ '\n' :: y)).more < t.length) :
    piece true st c (t ++ v) = piece true st c (t ++ '\n' :: y) := by
  refine piece_append_of_unglued hlen (fun hk => Or.inl (hgap hk)) hv.toUnglued
    (fun _ => hv.bracketLength?_eq t y) (fun hd => ?_) (fun hc _ hfresh => ?_) fun mark hmark => ?_
  · refine ⟨(hj.dollar hd).1, fun hlast => (hj.dollar hd).2 ?_⟩
    rw [getLast?_cons, hlast]
    rfl
  · -- the line is no directive before the line feed
    have hnone : directive? st c (t ++ '\n' :: y) = none := by
      cases hp : directive? st c (t ++ '\n' :: y) with
      | none => rfl
      | some p =>
        exfalso
        apply hkind
        unfold piece
        rw [if_neg (by simp [hc]), hfresh, hp]
        exact (directive?_cases hp).1
    have hne : c ≠ '\n' := by
      rintro rfl
      cases hc
    rw [hnone]
    rw [directive?_append_newline] at hnone
    exact directive?_append_of_separates hv hnone hne hj.last
  · exact hj.mark_eq mark hmark (c :: t) (cons_ne_nil c t) suffix_rfl

/-- **Up to the start of a lexeme**, a run without directives is the same before separating text as
before a line feed. -/
lemma Run.append_of_separates (hv : Separates v)
    (h : Run true st i (t ++ '\n' :: y) ls st' j (r ++ '\n' :: y)) (hr : r ≠ [])
    (hj : Joins st.delimiter t v y) (hls : ∀ l ∈ ls, l.kind ≠ .directive) :
    Run true st i (t ++ v) ls st' j (r ++ v) := by
  have hrlen := length_pos_iff.mpr hr
  refine append_congr (P := fun st t ls =>
    (t ≠ [] → Joins st.delimiter t v y) ∧ ∀ l ∈ ls, l.kind ≠ .directive) ?_ h (by simp)
    ⟨fun _ => hj, hls⟩
  rintro st i c t ls _ rfl ⟨hjoins, hls⟩ hlen
  have hmore := (piece true st c (t ++ '\n' :: y)).more_le_width
  obtain ⟨hl, hls⟩ := forall_mem_append.mp hls
  have hdir : (piece true st c (t ++ '\n' :: y)).kind ≠ some .directive := fun hk => by
    simp [Piece.lexemes, hk] at hl
  refine ⟨?_, fun hne => ?_, hls⟩
  · exact piece_append_of_separates hv (hjoins (cons_ne_nil c t)) hdir (by omega)
      fun _ => by omega
  · rw [piece_delimiter hdir]
    exact (hjoins (cons_ne_nil c t)).of_suffix hne
      ((drop_suffix _ t).trans (suffix_cons c t))

/-- **Up to the end of a lexeme**, a run without directives is the same before separating text as
before a line feed. -/
lemma exists_run_append_of_separates (hv : Separates v) {l : Lexeme}
    (hl : l ∈ scanFrom true st 0 (t ++ ['\n'])) (hstop : l.stop = byteLength t)
    (hj : Joins st.delimiter t v [])
    (hdir : ∀ m ∈ scanFrom true st 0 (t ++ ['\n']), m.kind ≠ .directive) :
    ∃ ls rest st', scanFrom true st 0 (t ++ ['\n']) = ls ++ rest ∧ l ∈ ls ∧
      Run true st 0 (t ++ v) ls st' (byteLength t) v := by
  obtain ⟨ls, ms, hscan⟩ := append_of_mem hl
  obtain ⟨st', x, c, r, rfl, htext, -, hrun, hk, hmore⟩ :=
    exists_run_to_last hscan (cons_ne_nil _ _) (hstop.trans (Nat.zero_add _).symm)
  have hls : ∀ m ∈ ls, m.kind ≠ .directive := fun m hm =>
    hdir m (hscan ▸ mem_append_left _ hm)
  -- the run to the lexeme, and the lexeme, with the separating text behind
  have hlong : Run true st 0 (x ++ c :: r ++ v) ls st' l.start (c :: r ++ v) :=
    Run.append_of_separates (t := x ++ c :: r) (r := c :: r) hv (by simpa using hrun)
      (cons_ne_nil c r) hj hls
  have hsame : piece true st' c (r ++ v) = piece true st' c (r ++ ['\n']) := by
    refine piece_append_of_separates hv ?_ (fun hd => ?_) (Nat.le_of_eq hmore) fun hnone => ?_
    · rw [hrun.delimiter_eq hls]
      exact hj.of_suffix (cons_ne_nil c r) (suffix_append x _)
    · exact hdir l hl (Option.some.inj (hk.symm.trans hd))
    · cases hk.symm.trans hnone
  obtain ⟨d, y, rfl, hd⟩ := hv.exists_cons
  rw [← hsame] at hk hmore
  have hend := run_lexeme htext hk hmore (piece_skip_eq_zero hmore hd)
  rw [hstop] at hend
  refine ⟨ls ++ [l], ms, _, ?_, by simp, hlong.trans hend⟩
  rw [hscan, append_assoc, singleton_append]

end Separates

end SqlOutline.Scan
