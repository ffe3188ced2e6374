import SqlOutline.Proofs.Lexeme.Run
import SqlOutline.Proofs.Text.Words
import SqlOutline.Statement.Split

/-!
# Directives

A directive is a line of its own. One that sets the delimiter carries it as the second word of its
text, which is all that the splitter sees of it.

## Main definitions

* `delimiterInForce` — the delimiter in force behind lexemes.
* `IsMark` — a text that can be set as a delimiter.

## Main results

* `Run.delimiter_eq_foldl` — the delimiter behind a run can be read off its lexemes.
* `directive?_append_eq_none` — a line that is no directive and goes on with other characters than
  letters and digits.
-/

namespace SqlOutline.Scan

open List Text

/-- The delimiter in force behind a lexeme, if it is not the semicolon. -/
def delimiterBehind (mark : Option Text) (l : Lexeme) : Option Text :=
  if l.kind = .directive then
    match directiveDelimiter? l.text with
    | some m => if m = [';'] then none else some m
    | none => mark
  else mark

/-- The delimiter in force behind the lexemes of a script, if it is not the semicolon. -/
def delimiterInForce (ls : List Lexeme) : Option Text := ls.foldl delimiterBehind none

/-! ## The text of a directive -/

variable {c : Char} {t : Text} {st : State}

lemma exists_eq_line_append (t : Text) : ∃ r, t = trimEnd (t.take (lineLength t)) ++ r := by
  obtain ⟨w, hw, -⟩ := exists_eq_trimEnd_append (t.take (lineLength t))
  refine ⟨w ++ t.drop (lineLength t), ?_⟩
  rw [← append_assoc, ← hw, take_append_drop]

lemma cons_take_eq {x r : Text} (h : c :: t = x ++ r) (hx : x ≠ []) :
    c :: t.take (x.length - 1) = x := by
  obtain ⟨d, y, rfl⟩ := exists_cons_of_ne_nil hx
  obtain ⟨rfl, rfl⟩ := cons.inj (h.trans cons_append)
  rw [length_cons, Nat.add_sub_cancel, take_left]

lemma isAsciiAlpha_of_delimiter {s : Text} (h : eqIgnoreCase s "DELIMITER".toList) :
    ∀ c ∈ s, isAsciiAlpha c :=
  isAsciiAlpha_of_eqIgnoreCase h (by decide)

lemma eqIgnoreCase_delimiter_of_go {s : Text} (h : eqIgnoreCase s "GO".toList) :
    eqIgnoreCase s "DELIMITER".toList = false := by
  have hs : upper s = upper "GO".toList := beq_iff_eq.mp h
  rw [eqIgnoreCase, hs]
  decide

/-- **Where the mark of a line stands** that sets a delimiter: behind the first word and white
space. What stands before it does not contain its first character. -/
lemma exists_of_words_eq_cons_cons {line first mark : Text} {more : List Text}
    (h : words line = first :: mark :: more) (hfirst : eqIgnoreCase first "DELIMITER".toList)
    (hmark : ¬ mark.any isAsciiAlnum) :
    ∃ x r, line = x ++ (mark ++ r) ∧ beforeSub? mark line = some x ∧
      words (x ++ mark) = [first, mark] := by
  obtain ⟨w, u, rfl, hw, hne, hblank, hu, hrest⟩ := exists_of_words_eq_cons h
  obtain ⟨v, r, rfl, hv, hmne, hmblank, -, -⟩ := exists_of_words_eq_cons hrest
  have hx : w ++ (first ++ (v ++ (mark ++ r))) = (w ++ (first ++ v)) ++ (mark ++ r) := by
    simp only [append_assoc]
  refine ⟨w ++ (first ++ v), r, hx, ?_, ?_⟩
  · obtain ⟨m, ms, rfl⟩ := exists_cons_of_ne_nil hmne
    rw [hx]
    apply beforeSub?_append_of_not_mem
    have hmb : isBlank m = false := hmblank m mem_cons_self
    -- white space and letters are no part of the mark
    simp only [mem_append, not_or]
    refine ⟨fun hmem => ?_, fun hmem => ?_, fun hmem => ?_⟩
    · rw [hw m hmem] at hmb
      cases hmb
    · apply hmark
      rw [any_cons, isAsciiAlnum, isAsciiAlpha_of_delimiter hfirst m hmem]
      rfl
    · rw [hv m hmem] at hmb
      cases hmb
  · have hvne : v ≠ [] := by
      rintro rfl
      obtain ⟨m, ms, rfl⟩ := exists_cons_of_ne_nil hmne
      have := hu m rfl
      rw [hmblank m mem_cons_self] at this
      cases this
    have hhead : ∀ c ∈ (v ++ mark).head?, isBlank c := by
      rw [head?_append_of_ne_nil _ hvne] at hu ⊢
      exact hu
    have hend := words_append_of_not_blank (t := []) hmne hmblank (by simp)
    rw [append_nil] at hend
    rw [append_assoc, append_assoc, words_append_of_blank hw,
      words_append_of_not_blank hne hblank hhead, words_append_of_blank hv, hend]
    rfl

/-- **The delimiter that a directive sets** can be read off its text: it is the second word, if the
first one says so, and otherwise the delimiter does not change.

**Proof sketch.** A batch line is the text of its directive; its first word is a slash or `GO`. In
any other directive the mark is found behind the first word (`exists_of_words_eq_cons_cons`), and
the text ends with it. -/
lemma directive?_delimiter {p : Piece} (h : directive? st c t = some p) (i : Nat) :
    p.state.delimiter = delimiterBehind st.delimiter ⟨.directive, c :: t.take p.more, i⟩ := by
  obtain ⟨r, hr⟩ := exists_eq_line_append (c :: t)
  rw [delimiterBehind, if_pos rfl]
  rcases directive?_eq_some h with ⟨hne, hbatch, rfl⟩ |
    ⟨first, mark, more, hwords, hdel, halnum, rfl⟩
  · have htext := cons_take_eq hr hne
    dsimp only [lexeme]
    rw [htext]
    rcases hbatch with hslash | ⟨first, rest, hwords, hgo⟩
    · rw [hslash]
      rfl
    · rw [directiveDelimiter?, hwords]
      cases rest with
      | nil => rfl
      | cons mark more =>
        simp only [eqIgnoreCase_delimiter_of_go hgo, Bool.false_eq_true, if_false]
  · obtain ⟨x, s, hx, hbefore, htwo⟩ := exists_of_words_eq_cons_cons hwords hdel halnum
    have hne : x ++ mark ≠ [] := by
      intro hnil
      rw [hnil] at htwo
      cases htwo
    have htext := cons_take_eq (r := s ++ r) (by rw [hr, hx]; simp only [append_assoc]) hne
    dsimp only [lexeme]
    rw [hbefore, Option.getD_some, ← length_append, htext, directiveDelimiter?, htwo]
    simp only [hdel, if_true]

/-- **The delimiter in force behind a run** can be read off its lexemes. -/
lemma Run.delimiter_eq_foldl {script : Bool} {st' : State} {i j : Nat} {u : Text}
    {ls : List Lexeme} (h : Run script st i t ls st' j u) :
    st'.delimiter = ls.foldl delimiterBehind st.delimiter := by
  induction h with
  | refl => rfl
  | gap hk _ ih => rw [ih, piece_delimiter (by rw [hk]; simp)]
  | @lexeme st st' i j c t u ls kind hk _ ih =>
    rw [ih, foldl_cons]
    congr 1
    by_cases hdir : kind = .directive
    · subst hdir
      exact directive?_delimiter (directive?_of_kind hk).2.2 i
    · rw [delimiterBehind, if_neg hdir, piece_delimiter (by rw [hk]; simpa using hdir)]

lemma foldl_delimiterBehind {ls : List Lexeme} (h : ∀ l ∈ ls, l.kind ≠ .directive)
    (mark : Option Text) : ls.foldl delimiterBehind mark = mark := by
  induction ls with
  | nil => rfl
  | cons l ls ih =>
    obtain ⟨hl, hls⟩ := forall_mem_cons.mp h
    rw [foldl_cons, delimiterBehind, if_neg hl, ih hls]

/-! ## Lines that are made longer -/

lemma trimEnd_of_not_blank (h : ∀ c ∈ t.getLast?, isBlank c = false) : trimEnd t = t := by
  rcases eq_nil_or_concat' t with rfl | ⟨s, c, rfl⟩
  · rfl
  · have hc : isBlank c = false := h c (by simp)
    simp [trimEnd, hc]

lemma lineLength_of_not_mem (h : '\n' ∉ t) : lineLength t = t.length := by
  rw [lineLength, takeWhile_eq_self_iff.mpr]
  intro c hc
  simpa using fun hcn : c = '\n' => h (hcn ▸ hc)

/-- **When a line is no directive**: it is no slash, and its first word is neither `GO` with at most
a count behind it nor the word that sets a delimiter with a mark behind it. -/
lemma directive?_eq_none_iff (hline : '\n' ∉ c :: t)
    (hlast : ∀ d ∈ (c :: t).getLast?, isBlank d = false) : directive? st c t = none ↔
      c :: t ≠ ['/'] ∧ ∀ first rest, words (c :: t) = first :: rest →
        (eqIgnoreCase first "GO".toList → isBatchCount rest = false) ∧
        (eqIgnoreCase first "DELIMITER".toList →
          ∀ mark ∈ rest.head?, mark.any isAsciiAlnum) := by
  have hwhole : trimEnd ((c :: t).take (lineLength (c :: t))) = c :: t := by
    rw [lineLength_of_not_mem hline, take_length, trimEnd_of_not_blank hlast]
  unfold directive?
  dsimp only
  rw [hwhole]
  by_cases hslash : c :: t = ['/']
  · rw [if_pos hslash]
    exact ⟨nofun, fun h => absurd hslash h.1⟩
  rw [if_neg hslash]
  cases hwords : words (c :: t) with
  | nil => exact ⟨fun _ => ⟨hslash, nofun⟩, fun _ => rfl⟩
  | cons first rest =>
    dsimp only
    by_cases hgo : eqIgnoreCase first "GO".toList
    · rw [if_pos hgo]
      cases hcount : isBatchCount rest with
      | true =>
        refine ⟨nofun, fun h => ?_⟩
        have := (h.2 first rest rfl).1 hgo
        rw [hcount] at this
        cases this
      | false =>
        refine ⟨fun _ => ⟨hslash, fun f r h => ?_⟩, fun _ => rfl⟩
        obtain ⟨rfl, rfl⟩ := cons.inj h
        refine ⟨fun _ => hcount, fun hdel => ?_⟩
        rw [eqIgnoreCase_delimiter_of_go hgo] at hdel
        cases hdel
    rw [if_neg hgo]
    by_cases hdel : eqIgnoreCase first "DELIMITER".toList
    · rw [if_pos hdel]
      cases rest with
      | nil =>
        refine ⟨fun _ => ⟨hslash, fun f r h => ?_⟩, fun _ => rfl⟩
        obtain ⟨rfl, rfl⟩ := cons.inj h
        exact ⟨fun h => absurd h hgo, nofun⟩
      | cons mark more =>
        by_cases halnum : mark.any isAsciiAlnum
        · refine ⟨fun _ => ⟨hslash, fun f r h => ?_⟩, fun _ => if_pos halnum⟩
          obtain ⟨rfl, rfl⟩ := cons.inj h
          refine ⟨fun h => absurd h hgo, fun _ m hm => ?_⟩
          obtain rfl : mark = m := Option.some.inj hm
          exact halnum
        · dsimp only
          rw [if_neg halnum]
          exact ⟨nofun, fun h => absurd ((h.2 _ _ rfl).2 hdel mark rfl) halnum⟩
    · rw [if_neg hdel]
      refine ⟨fun _ => ⟨hslash, fun f r h => ?_⟩, fun _ => rfl⟩
      obtain ⟨rfl, rfl⟩ := cons.inj h
      exact ⟨fun h => absurd h hgo, fun h => absurd h hdel⟩

lemma eqIgnoreCase_append_eq_false {z w k : Text} (hk : ∀ c ∈ upper k, isAsciiAlpha c)
    (hne : w ≠ []) (hw : ∀ d ∈ w, isAsciiAlnum d = false) : eqIgnoreCase (z ++ w) k = false := by
  by_contra h
  rw [Bool.not_eq_false] at h
  obtain ⟨d, hd⟩ := exists_mem_of_ne_nil w hne
  have halpha := isAsciiAlpha_of_eqIgnoreCase h hk d (mem_append_right z hd)
  have := hw d hd
  rw [isAsciiAlnum, halpha] at this
  cases this

/-- **A line that is made longer** by characters that are neither letters, digits nor white space
does not become a directive.

**Proof sketch.** A line feed in the text ends the line before the new characters. Otherwise they
belong to the last word of the line. If that is the first word, it is none of the words of
directives. If it is the second one, it is no count, and as a mark it has the letters and digits
that it had before. -/
lemma directive?_append_eq_none {w : Text} (h : directive? st c t = none)
    (hc : c ≠ '\n') (hlast : ∀ d ∈ (c :: t).getLast?, isBlank d = false) (hne : w ≠ [])
    (hw : ∀ d ∈ w, isBlank d = false ∧ isAsciiAlnum d = false) :
    directive? st c (t ++ w) = none := by
  by_cases hline : '\n' ∈ t
  · obtain ⟨s, u, rfl⟩ := append_of_mem hline
    rw [directive?_append_newline] at h
    rw [append_assoc, cons_append, directive?_append_newline, h]
  have hline' : '\n' ∉ c :: (t ++ w) := by
    simp only [mem_cons, mem_append, not_or]
    refine ⟨hc.symm, hline, fun hmem => ?_⟩
    have := (hw _ hmem).1
    revert this
    decide
  have hlast' : ∀ d ∈ (c :: (t ++ w)).getLast?, isBlank d = false := by
    intro d hd
    rw [← cons_append, getLast?_append_of_ne_nil _ hne] at hd
    exact (hw d (mem_of_getLast? hd)).1
  have hgo : ∀ z : Text, eqIgnoreCase (z ++ w) "GO".toList = false := fun z =>
    eqIgnoreCase_append_eq_false (by decide) hne fun d hd => (hw d hd).2
  have hdel : ∀ z : Text, eqIgnoreCase (z ++ w) "DELIMITER".toList = false := fun z =>
    eqIgnoreCase_append_eq_false (by decide) hne fun d hd => (hw d hd).2
  obtain ⟨d, hd⟩ := exists_mem_of_ne_nil w hne
  obtain ⟨ws, z, hz, hzw⟩ :=
    words_append_word (fun d hd => (hw d hd).1) (cons_ne_nil c t) hlast
  rw [directive?_eq_none_iff (by simp [hline, hc.symm]) hlast] at h
  rw [directive?_eq_none_iff hline' hlast']
  refine ⟨fun hslash => ?_, fun first rest hwords => ?_⟩
  · have := congrArg length hslash
    have := length_pos_iff.mpr hne
    simp only [length_cons, length_append, length_nil] at *
    omega
  rw [← cons_append, hzw] at hwords
  cases ws with
  | nil =>
    obtain ⟨rfl, rfl⟩ := cons.inj hwords
    refine ⟨fun h => ?_, fun h => ?_⟩
    · rw [hgo] at h
      cases h
    · rw [hdel] at h
      cases h
  | cons f ws =>
    obtain ⟨rfl, rfl⟩ := cons.inj hwords
    obtain ⟨hcount, hmark⟩ := h.2 f (ws ++ [z]) hz
    cases ws with
    | nil =>
      refine ⟨fun _ => ?_, fun hf mark hm => ?_⟩
      · have hdigit : isAsciiDigit d = false := (Bool.or_eq_false_iff.mp (hw d hd).2).2
        have : (z ++ w).all isAsciiDigit = false := by
          rw [all_eq_false]
          exact ⟨d, mem_append_right z hd, by simp [hdigit]⟩
        exact this
      · obtain rfl : z ++ w = mark := by simpa using hm
        rw [any_append, hmark hf z rfl, Bool.true_or]
    | cons g ws =>
      refine ⟨fun _ => ?_, fun hf mark hm => hmark hf mark hm⟩
      cases ws <;> rfl

/-! ## Lines that set a delimiter -/

/-- A text that can be set as a delimiter other than the semicolon. -/
structure IsMark (d : Text) : Prop where
  ne_nil : d ≠ []
  not_blank : ∀ c ∈ d, isBlank c = false
  not_alnum : ∀ c ∈ d, isAsciiAlnum c = false
  ne_semicolon : d ≠ [';']

/-- **A line that sets a delimiter** is a directive up to the mark. -/
lemma directive?_delimiter_line {d : Text} (hd : IsMark d) (st : State) :
    directive? st 'D' ("ELIMITER ".toList ++ d) =
      some (lexeme .directive (d.length + 9) { st with delimiter := some d }) := by
  obtain ⟨m, ms, rfl⟩ := exists_cons_of_ne_nil hd.ne_nil
  have hline : 'D' :: ("ELIMITER ".toList ++ m :: ms) = "DELIMITER ".toList ++ m :: ms := rfl
  have hnewline : '\n' ∉ "DELIMITER ".toList ++ m :: ms := by
    rw [mem_append, not_or]
    refine ⟨by decide, fun hmem => ?_⟩
    have := hd.not_blank _ hmem
    revert this
    decide
  have hwhole : trimEnd (("DELIMITER ".toList ++ m :: ms).take
      (lineLength ("DELIMITER ".toList ++ m :: ms))) = "DELIMITER ".toList ++ m :: ms := by
    rw [lineLength_of_not_mem hnewline, take_length]
    refine trimEnd_of_not_blank fun c hc => ?_
    rw [getLast?_append_of_ne_nil _ hd.ne_nil] at hc
    exact hd.not_blank c (mem_of_getLast? hc)
  have hwords : words ("DELIMITER ".toList ++ m :: ms) = ["DELIMITER".toList, m :: ms] := by
    have hmark := words_append_of_not_blank (t := []) hd.ne_nil hd.not_blank (by simp)
    rw [append_nil] at hmark
    have hfirst := words_append_of_not_blank (x := "DELIMITER".toList) (t := ' ' :: m :: ms)
      (by decide) (by decide) (fun c hc => Option.some.inj hc ▸ rfl)
    rw [show "DELIMITER ".toList ++ m :: ms = "DELIMITER".toList ++ ' ' :: m :: ms from rfl, hfirst,
      show ' ' :: m :: ms = [' '] ++ m :: ms from rfl, words_append_of_blank (by decide), hmark]
    rfl
  have hbefore : beforeSub? (m :: ms) ("DELIMITER ".toList ++ m :: ms) =
      some "DELIMITER ".toList := by
    have hmem : m ∉ "DELIMITER ".toList := by
      intro hmem
      have hm : isBlank m = false ∧ isAsciiAlnum m = false :=
        ⟨hd.not_blank m mem_cons_self, hd.not_alnum m mem_cons_self⟩
      have hno : ∀ c ∈ "DELIMITER ".toList, ¬ (isBlank c = false ∧ isAsciiAlnum c = false) := by
        decide
      exact hno m hmem hm
    simpa using beforeSub?_append_of_not_mem hmem ms []
  have halnum : ¬ (m :: ms).any isAsciiAlnum := by
    rw [any_eq_true]
    rintro ⟨c, hc, halnum⟩
    rw [hd.not_alnum c hc] at halnum
    cases halnum
  unfold directive?
  dsimp only
  rw [hline, hwhole, if_neg (by simp), hwords]
  dsimp only
  rw [if_neg (by decide), if_pos (by decide), if_neg halnum, hbefore, if_neg hd.ne_semicolon]
  congr 2
  simp only [Option.getD_some, length_cons]
  change 10 + (ms.length + 1) - 1 = ms.length + 1 + 9
  omega

end SqlOutline.Scan
