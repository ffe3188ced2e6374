import SqlOutline.Proofs.Lexeme.Ending
import SqlOutline.Proofs.Statement.Append

/-!
# Batches

A line that ends a batch separates what stands before it from what stands behind it, whatever is
left open. The scanner reads the text before it as if nothing followed; the splitter keeps nothing
but the delimiter.

## Main definitions

* `batchSeparators`, `EndsBare` — such lines, and texts that end outside of literals.

## Main results

* `Run.scanScript_batch` — the lexemes of two batches.
* `groups_append_of_isBoundary` — groups before and behind a directive or delimiter.
-/

namespace SqlOutline

open List Text Statement Scan

/-! ## Starts of lines -/

variable {st : State} {t : Text}

namespace Scan

lemma piece_freshLine {script : Bool} {c : Char}
    (h : (piece script st c t).state.freshLine) :
    (piece script st c t).kind = none ∧ (piece script st c t).more ≤ lineLength t := by
  rcases piece_cases script st c t with ⟨-, hp⟩ | ⟨-, -, hp⟩ | ⟨mark, -, -, hp⟩ | hp
  · rw [hp]
    exact ⟨rfl, Nat.zero_le _⟩
  · rcases directive?_eq_some hp with ⟨-, -, hq⟩ | ⟨_, _, _, -, -, -, hq⟩ <;>
    · rw [hq] at h
      cases h
  · rw [hp] at h
    cases h
  · rw [hp] at h ⊢
    rcases plainPiece_cases st c t with ⟨kind, more, hq, -⟩ | ⟨more, fresh, hq, hline, -⟩
    · rw [hq] at h
      cases h
    · rw [hq] at h ⊢
      rcases hline with rfl | rfl
      · cases h
      · exact ⟨rfl, Nat.le_refl _⟩

namespace Run

variable {script : Bool} {st st' : State} {i j : Nat} {t u x y : Text} {ls : List Lexeme}

/-- **A run to the start of a line** reads the line feed before it by itself. -/
lemma through_newline (h : Run script st i (x ++ '\n' :: y) ls st' j y)
    (hfresh : st'.freshLine) :
    ∃ st₁ k, Run script st i (x ++ '\n' :: y) ls st₁ k ('\n' :: y) := by
  generalize ht : x ++ '\n' :: y = t at h
  induction h using step_induction generalizing x with
  | refl =>
    have := congrArg length ht
    rw [length_append, length_cons] at this
    omega
  | step st i c s ls h ih =>
    have hle := h.length_le
    -- a piece that reaches over the line feed is the last one, and a gap
    have hover (hlast : (s.drop (piece script st c s).width).length ≤ y.length) :
        (piece script st c s).kind = none ∧ (piece script st c s).more ≤ lineLength s := by
      obtain ⟨-, rfl, -⟩ := h.eq_of_length_le hlast
      exact piece_freshLine hfresh
    cases x with
    | nil =>
      obtain ⟨rfl, rfl⟩ := cons.inj ht
      have hlast : (y.drop (piece script st '\n' y).width).length ≤ y.length := by simp
      obtain ⟨rfl, -, -⟩ := h.eq_of_length_le hlast
      rw [Piece.lexemes, (hover hlast).1]
      exact ⟨st, i, .refl _ _ _⟩
    | cons d x =>
      obtain ⟨rfl, rfl⟩ := cons.inj (cons_append ▸ ht)
      have hlen : (piece script st d (x ++ '\n' :: y)).width ≤ x.length := by
        by_contra hlt
        obtain ⟨hk, hmore⟩ := hover (by
          rw [length_drop, length_append, length_cons]
          omega)
        rw [lineLength_append_newline] at hmore
        have := lineLength_le x
        rw [Piece.width, (piece_gap hk).1] at hlt
        omega
      obtain ⟨st₁, k, hrun⟩ := ih (drop_append_of_le_length hlen).symm
      exact ⟨st₁, k, hrun.step⟩

end Run

end Scan

/-! ## Lines that end a batch -/

/-- The lines that end a batch, with the line feeds around them. -/
def batchSeparators : List Text := ["\nGO\n".toList, "\n/\n".toList]

variable {a : Text} {ls : List Lexeme}

namespace Scan

/-- **A directive that fills its line**, and the line feed behind it. -/
lemma run_directive_line {st' : State} {c : Char} {u : Text} (hc : isAsciiBlank c = false)
    (hst : st.freshLine) (hu : directive? st c u = some (lexeme .directive u.length st'))
    (i : Nat) (z : Text) :
    Run true st i (c :: (u ++ '\n' :: z)) [⟨.directive, c :: u, i⟩] { st' with freshLine := true }
      (i + byteLength (c :: u) + 1) z := by
  have hp : piece true st c (u ++ '\n' :: z) = lexeme .directive u.length st' := by
    unfold piece
    rw [if_neg (by simp [hc]), hst]
    dsimp only
    rw [directive?_append_newline, hu]
    rfl
  have hrun : Run true st i (c :: (u ++ '\n' :: z)) _ _ _ _ :=
    .lexeme (by rw [hp]; rfl) (.refl _ _ _)
  rw [hp] at hrun
  simp only [lexeme, take_left, drop_left, Nat.add_zero, take_zero, byteLength_nil] at hrun
  exact hrun.trans (.gap rfl (.refl _ _ _))

/-- **A line that ends a batch**: behind it, the scanner knows what it knows at the start of a
script. -/
lemma exists_run_batch (ht : t ∈ batchSeparators) :
    ∃ w, t = '\n' :: (w ++ ['\n']) ∧ directiveDelimiter? w = none ∧
      ∀ i z, Run true {} i (w ++ '\n' :: z) [⟨.directive, w, i⟩] {} (i + byteLength w + 1) z := by
  simp only [batchSeparators, mem_cons, not_mem_nil, or_false] at ht
  rcases ht with rfl | rfl
  · have hgo : directive? {} 'G' ['O'] = some (lexeme .directive 1 {}) := rfl
    exact ⟨"GO".toList, rfl, rfl, run_directive_line rfl rfl hgo⟩
  · have hslash : directive? {} '/' [] = some (lexeme .directive 0 {}) := rfl
    exact ⟨['/'], rfl, rfl, run_directive_line rfl rfl hslash⟩

/-- **The lexemes of two batches** are those of the first, the line between them, and those of the
second, shifted, if a run comes through the first up to its end. -/
lemma Run.scanScript_batch {y : Text} {k : Nat}
    (h : Run true {} 0 (a ++ '\n' :: y) ls st k ('\n' :: y)) (ht : t ∈ batchSeparators)
    (hd : delimiterInForce (scanScript a) = none) :
    ∃ m : Lexeme, m.kind = .directive ∧ directiveDelimiter? m.text = none ∧
      ∀ b, scanScript (a ++ t ++ b) =
        scanScript a ++ m :: (scanScript b).map (Lexeme.shift (byteLength (a ++ t))) := by
  obtain ⟨w, rfl, hw, hbatch⟩ := exists_run_batch ht
  have hends : ∀ v, BreaksLine v → Run true {} 0 (a ++ v) ls st k v := fun v hv =>
    h.append_of_breaksLine (r := []) State.wellFormed_init hv
  have hscan : scanScript a = ls := by
    have h := (hends [] (by simp [BreaksLine])).scanFrom_eq
    rwa [append_nil, scanFrom, append_nil] at h
  have hdelimiter : st.delimiter = none := by
    rw [h.delimiter_eq_foldl, ← hscan]
    exact hd
  refine ⟨⟨.directive, w, byteLength a + 1⟩, rfl, hw, fun b => ?_⟩
  have hlong := hends ('\n' :: (w ++ '\n' :: b)) (by simp [BreaksLine])
  obtain ⟨x, hx, rfl⟩ := hlong.exists_append
  obtain rfl := append_cancel_right hx
  have hnewline : Run true st (0 + byteLength a) ('\n' :: (w ++ '\n' :: b)) [] {}
      (byteLength a + 1) (w ++ '\n' :: b) := by
    refine .gap rfl ?_
    rw [show (piece true st '\n' (w ++ '\n' :: b)).state = {} by
      simp [piece, isAsciiBlank, hdelimiter], Nat.zero_add]
    exact .refl _ _ _
  have hall := ((hlong.trans hnewline).trans (hbatch _ b)).scanFrom_eq
  have hoffset : byteLength a + 1 + byteLength w + 1 = byteLength (a ++ '\n' :: (w ++ ['\n'])) := by
    simp only [byteLength_append, byteLength_cons, byteLength_nil]
    change _ = byteLength a + (1 + (byteLength w + (1 + 0)))
    omega
  rw [hoffset, ← Nat.add_zero (byteLength (a ++ _)), scanFrom_add, append_nil] at hall
  rw [scanScript, show a ++ '\n' :: (w ++ ['\n']) ++ b = a ++ '\n' :: (w ++ '\n' :: b) by simp,
    hall, hscan, append_assoc]
  rfl

/-- A text that ends outside of literals and comments: a line that ends a batch, put behind it, is
read as a directive. -/
def EndsBare (a t : Text) : Prop :=
  ∃ l, (scanScript (a ++ t)).getLast? = some l ∧ l.kind = .directive ∧ l.start = byteLength a + 1

instance (a t : Text) : Decidable (EndsBare a t) :=
  decidable_of_iff
    (((scanScript (a ++ t)).getLast?.any fun l =>
      l.kind == .directive && l.start == byteLength a + 1))
    (by simp [EndsBare, Option.any_eq_true])

/-- **A text that ends outside of literals and comments** is read by a run up to its end. -/
lemma EndsBare.exists_run (ht : t ∈ batchSeparators) (ha : EndsBare a t) :
    ∃ ls st k y, Run true {} 0 (a ++ '\n' :: y) ls st k ('\n' :: y) := by
  obtain ⟨w, rfl, -, -⟩ := exists_run_batch ht
  obtain ⟨l, hlast, hkind, hstart⟩ := ha
  obtain ⟨ls, st, c, u, hrun, hk, -⟩ := exists_run_of_mem (mem_of_getLast? hlast)
  -- the directive stands behind the text and a line feed
  obtain ⟨x, hx, hlen⟩ := hrun.exists_append
  obtain ⟨rfl, hu⟩ : a ++ ['\n'] = x ∧ w ++ ['\n'] = c :: u := by
    apply append_inj_of_byteLength
    · rw [← hx, append_assoc]
      rfl
    · rw [byteLength_append]
      change byteLength a + 1 = byteLength x
      omega
  rw [hkind] at hk
  have hfresh := (directive?_of_kind hk).2.1
  rw [← hu] at hrun
  obtain ⟨st₁, k, hfeed⟩ := hrun.through_newline hfresh
  exact ⟨ls, st₁, k, _, hfeed⟩

end Scan

/-! ## The splitter at a directive or delimiter -/

variable {m : Lexeme}

lemma Splitter.observe_of_isBoundary (s : Splitter) (hm : m.isBoundary)
    (before : Option Lexeme) (l : Lexeme) :
    s.observe before l (some m) = s.observe before l none := by
  have hkind : (m.kind == .word) = false := by
    rw [Lexeme.isBoundary, Bool.or_eq_true, beq_iff_eq, beq_iff_eq] at hm
    rcases hm with h | h <;> rw [h] <;> rfl
  have hword : ∀ w, m.isWord w = false := fun w => by rw [Lexeme.isWord, hkind, Bool.false_and]
  have hany : ∀ ws, m.isAnyWord ws = false := fun ws => by
    rw [Lexeme.isAnyWord, hkind, Bool.false_and]
  have hmark : blockMark before l (some m) = blockMark before l none := by
    simp [blockMark, hm, hany]
  simp [observe, observeHeader, observeBodyWord, observeDeclare, hmark, hword, hkind]

variable {p : Progress}

namespace Progress

section

variable {mark : Option Text} (hp : p.custom = mark.isSome) (l : Lexeme) (after : Option Lexeme)

include hp

lemma customBehind_eq : p.customBehind l = (delimiterBehind mark l).isSome := by
  unfold customBehind delimiterBehind
  split_ifs
  · cases directiveDelimiter? l.text with
    | none => exact hp
    | some m => by_cases hm : m = [';'] <;> simp [hm]
  · exact hp

lemma custom_step : (p.step l after).custom = (delimiterBehind mark l).isSome := by
  have hbehind := customBehind_eq hp l
  unfold step
  split_ifs with hends
  · exact hbehind
  · rw [← hbehind, customBehind, if_neg]
    intro hk
    have := isBoundary_of_not_ends (Bool.not_eq_true _ ▸ hends)
    rw [Lexeme.isBoundary, hk] at this
    cases this

end

/-- **Groups before and behind a directive or delimiter**: those before it are formed as if nothing
followed; those behind it depend only on the delimiter in force. -/
lemma groups_append_of_isBoundary (mark : Option Text) (hp : p.custom = mark.isSome)
    (ls : List Lexeme) (hm : m.isBoundary) (ms : List Lexeme) :
    p.groups (ls ++ m :: ms) = p.groups ls ++
      groups { custom := ((ls ++ [m]).foldl delimiterBehind mark).isSome, before := some m }
        ms := by
  induction ls generalizing p mark with
  | nil =>
    have hends : p.ends m := by rw [ends, hm, Bool.true_or]
    have hcustom := custom_step hp m ms.head?
    rw [step, if_pos hends] at hcustom
    change p.closed m ++ (p.step m ms.head?).groups ms = p.finished ++ groups _ ms
    rw [closed, if_pos hends, step, if_pos hends, nil_append, foldl_cons, foldl_nil, ← hcustom]
  | cons l ls ih =>
    have hstep : p.step l (ls ++ m :: ms).head? = p.step l ls.head? := by
      cases ls with
      | cons => rfl
      | nil =>
        rw [nil_append, head?_cons, step, step, Splitter.observe_of_isBoundary _ hm]
        rfl
    rw [cons_append, groups, groups, hstep, ih _ (custom_step hp l _), append_assoc]
    rfl

/-- Behind a directive or delimiter, the groups of lexemes that are shifted are the shifted groups
that are formed at the start of a script with the same delimiter in force. -/
lemma groups_append_shift {mark' : Option Text} (mark : Option Text)
    (hp : p.custom = mark.isSome) (ls : List Lexeme) (hm : m.isBoundary)
    (hforce : (ls ++ [m]).foldl delimiterBehind mark = mark') (n : Nat) (ms : List Lexeme) :
    p.groups (ls ++ m :: ms.map (Lexeme.shift n)) = p.groups ls ++
      (groups { custom := mark'.isSome } ms).map (map (Lexeme.shift n)) := by
  have hword : m.kind ≠ .word := by
    intro hk
    rw [Lexeme.isBoundary, hk] at hm
    cases hm
  rw [groups_append_of_isBoundary mark hp ls hm, hforce,
    groups_of_not_word hword { custom := mark'.isSome }, ← groups_shift]
  rfl

end Progress

lemma Grouping.map_ofGroup_shift {gs : List (List Lexeme)} (h : Grouping ls gs) (x t : Text) :
    (gs.map (map (Lexeme.shift (byteLength x)))).map (ofGroup (x ++ t)) =
      (gs.map (ofGroup t)).map (shift (byteLength x)) := by
  rw [map_map, map_map]
  exact map_congr_left fun g hg => ofGroup_shift x t (h.of_mem hg).1

/-! ## Statements of two batches -/

lemma slice_append_of_isBoundary {i j : Nat} (hi : isBoundary i a)
    (hj : isBoundary j a) (z : Text) : slice i j (a ++ z) = slice i j a := by
  rcases Nat.le_total i j with hij | hji
  · obtain ⟨x, y, u, rfl, rfl, rfl⟩ := exists_split_of_isBoundary hi hj hij
    rw [slice_append, append_assoc, append_assoc, slice_append]
  · rw [slice, slice, Nat.sub_eq_zero_of_le hji, takeBytes_zero, takeBytes_zero]

lemma ofGroup_append {g : List Lexeme} (hls : Scan.Lossless a ls)
    (hg : g.Sublist ls) (hne : g ≠ []) (z : Text) : ofGroup (a ++ z) g = ofGroup a g := by
  obtain ⟨l, hl, hstart⟩ := exists_start_eq hne
  obtain ⟨m, hm, hstop⟩ := exists_stop_eq hne
  rw [ofGroup, ofGroup, slice_append_of_isBoundary]
  · exact hstart ▸ (hls.isBoundary l (hg.subset hl)).1
  · exact hstop ▸ (hls.isBoundary m (hg.subset hm)).2

namespace Scan

lemma not_infix_append_batch {u : Text} (ht : t ∈ batchSeparators)
    (hu : ¬ ['*', '/'] <:+: u) : ¬ ['*', '/'] <:+: u ++ t := by
  have hstar : '*' ∉ t := by
    revert t
    decide
  have hslash : t.head? ≠ some '/' := by
    revert t
    decide
  rintro ⟨x, y, hxy⟩
  rw [append_assoc] at hxy
  rcases append_eq_append_iff.mp hxy with ⟨z, rfl, hz⟩ | ⟨z, rfl, hz⟩
  · -- the star stands before the line
    match z with
    | [] =>
      rw [nil_append] at hz
      exact hstar (hz ▸ mem_cons_self)
    | [d] =>
      obtain ⟨-, hz⟩ := cons.inj hz
      exact hslash (congrArg head? hz.symm)
    | d :: e :: w =>
      simp only [cons_append, cons.injEq] at hz
      obtain ⟨rfl, rfl, -⟩ := hz
      exact hu ⟨x, w, by simp⟩
  · exact hstar (hz ▸ mem_append_right z mem_cons_self)

/-- **A line that ends a batch, behind a text without open literals**: it is a directive, or the
text ends in a comment that goes on over the line. -/
lemma LiteralsClosed.scanScript_append (ha : LiteralsClosed a)
    (ht : t ∈ batchSeparators) (hplain : ∀ l ∈ scanScript a, l.isBoundary = false) :
    scanScript (a ++ t) = scanScript a ∨
      ∃ m : Lexeme, m.isBoundary ∧ scanScript (a ++ t) = scanScript a ++ [m] := by
  have hdir : ∀ l ∈ scanScript a, l.kind ≠ .directive := by
    intro l hl hk
    have := hplain l hl
    rw [Lexeme.isBoundary, hk] at this
    cases this
  rcases exists_run_or_crossing true {} 0 a with ⟨ls, st, j, h⟩ | ⟨ls, st, j, c, r, h, hcross⟩
  · right
    have hforce : delimiterInForce (scanScript a) = none := foldl_delimiterBehind hdir none
    obtain ⟨m, hkind, -, hscan⟩ := h.scanScript_batch ht hforce
    refine ⟨m, by rw [Lexeme.isBoundary, hkind]; rfl, ?_⟩
    have hnil : scanScript [] = [] := by rw [scanScript, scanFrom]
    have := hscan []
    rwa [append_nil, hnil] at this
  · left
    have hall : (r ++ ['\n']).take (piece true st c (r ++ ['\n'])).more = r ++ ['\n'] := by
      rw [take_of_length_le]
      rw [length_append, length_singleton]
      exact hcross
    have hscan := h.scanFrom_eq
    have hsub : ∀ l ∈ ls, l ∈ scanScript a := by
      intro l hl
      rw [← ha, scanScript, hscan]
      exact mem_append_left _ hl
    have hst : st.delimiter = none := h.delimiter_eq fun l hl => hdir l (hsub l hl)
    cases hk : (piece true st c (r ++ ['\n'])).kind with
    | some kind =>
      -- a literal that covers the line feed is not closed
      exfalso
      rw [scanFrom_lexeme hk, hall] at hscan
      have hmem : (⟨kind, c :: (r ++ ['\n']), j⟩ : Lexeme) ∈ scanScript a := by
        rw [← ha, scanScript, hscan]
        exact mem_append_right ls mem_cons_self
      have hle := (lossless_scanFrom true {} a).stop_le _ hmem
      obtain ⟨x, hx, rfl⟩ := h.exists_append
      have hlen := congrArg byteLength hx
      rw [Lexeme.stop] at hle
      rw [byteLength_append, byteLength_append] at hlen
      change byteLength a + 1 = _ at hlen
      dsimp only at hle
      omega
    | none =>
      -- a comment that covers the line feed goes on over the line
      have hcomment : ∃ after, Comment ((c :: r) ++ ['\n']) after := by
        rcases (piece_gap hk).2 with ⟨-, hmore⟩ | hcomment
        · omega
        · exact ⟨_, by rwa [hall] at hcomment⟩
      obtain ⟨after, hcomment⟩ := hcomment
      obtain ⟨u, hu, hopen⟩ := hcomment.of_newline
      obtain ⟨rfl, hstar⟩ := cons.inj hu
      obtain ⟨s, rfl⟩ : ∃ s, r = '*' :: s := by
        cases r with
        | nil => cases (cons.inj hstar).1
        | cons d s => exact ⟨s, by rw [(cons.inj hstar).1]⟩
      have hsu : s ++ ['\n'] = u := (cons.inj hstar).2
      have hs : ¬ ['*', '/'] <:+: s := by
        intro hin
        rw [← hsu] at hopen
        exact hopen (hin.trans (prefix_append s _).isInfix)
      have hends : ∀ v, BreaksLine v → ¬ ['*', '/'] <:+: s ++ v → scanScript (a ++ v) = ls := by
        intro v hv hv'
        have hrun := h.append_of_breaksLine (r := '/' :: '*' :: s) State.wellFormed_init hv
        rw [scanScript, hrun.scanFrom_eq]
        have := scanFrom_openComment hst hk hv hv' j
        rw [cons_append, cons_append, this, append_nil]
      have hself := hends [] (by simp [BreaksLine]) (by rwa [append_nil])
      rw [append_nil] at hself
      rw [hself]
      refine hends t ?_ (not_infix_append_batch ht hs)
      obtain ⟨w, rfl, -, -⟩ := exists_run_batch ht
      simp [BreaksLine]

end Scan

/-- **A line that ends a batch changes nothing** in a text without open literals, directives and
delimiters: the statements are those of the text. -/
lemma splitStatements_append_batch (ht : t ∈ batchSeparators)
    (ha : Scan.LiteralsClosed a) (hplain : ∀ l ∈ scanScript a, l.isBoundary = false) :
    splitStatements (a ++ t) = splitStatements a := by
  have hgroups : Progress.groups {} (scanScript (a ++ t)) = Progress.groups {} (scanScript a) := by
    rcases ha.scanScript_append ht hplain with hscan | ⟨m, hm, hscan⟩
    · rw [hscan]
    · rw [hscan, Progress.groups_append_of_isBoundary none rfl _ hm]
      exact append_nil _
  rw [splitStatements_eq_groups, hgroups, splitStatements_eq_groups]
  refine map_congr_left fun g hg => ?_
  obtain ⟨hne, hsub, -⟩ := (grouping_scanScript a).of_mem hg
  exact ofGroup_append (lossless_scanFrom true {} a) hsub hne t

/-- **A line that ends a batch resynchronizes the splitter.** Put between two texts, of which the
first may leave parentheses and blocks open or still wait for the body of a routine, it gives the
statements of the first text and those of the second, behind the first text and the line. All that
is asked of the first text is that the line is read as a directive behind it and that no delimiter
other than the semicolon is in force there. -/
theorem splitStatements_batch {a b t : Text} (ht : t ∈ batchSeparators) (ha : Scan.EndsBare a t)
    (hd : Scan.delimiterInForce (scanScript a) = none) :
    splitStatements (a ++ t ++ b) = splitStatements a ++
      (splitStatements b).map (Statement.shift (byteLength (a ++ t))) := by
  obtain ⟨ls, st, k, y, hrun⟩ := ha.exists_run ht
  obtain ⟨m, hkind, hmark, hscan⟩ := hrun.scanScript_batch ht hd
  have hm : m.isBoundary = true := by rw [Lexeme.isBoundary, hkind]; rfl
  have hforce : (scanScript a ++ [m]).foldl delimiterBehind none = none := by
    rw [foldl_append, ← delimiterInForce, hd, foldl_cons, foldl_nil,
      delimiterBehind, if_pos hkind, hmark]
  rw [splitStatements_eq_groups, hscan b,
    Progress.groups_append_shift none rfl _ hm hforce, map_append,
    (Progress.grouping (by simp) _).map_ofGroup_shift, splitStatements_eq_groups a,
    splitStatements_eq_groups b]
  congr 1
  refine map_congr_left fun g hg => ?_
  obtain ⟨hne, hsub, -⟩ := (grouping_scanScript a).of_mem hg
  rw [append_assoc]
  exact ofGroup_append (lossless_scanFrom true {} a) hsub hne _

/-- A procedure that still waits for its body, inside an open parenthesis and an open block, ends at
the line. -/
theorem splitStatements_batch_open :
    Scan.EndsBare "CREATE PROCEDURE p AS SELECT (1; BEGIN x".toList "\nGO\n".toList ∧
      splitStatements ("CREATE PROCEDURE p AS SELECT (1; BEGIN x".toList ++ "\nGO\n".toList ++
          "SELECT 2; SELECT 3".toList) =
        splitStatements "CREATE PROCEDURE p AS SELECT (1; BEGIN x".toList ++
          (splitStatements "SELECT 2; SELECT 3".toList).map (Statement.shift (byteLength
            ("CREATE PROCEDURE p AS SELECT (1; BEGIN x".toList ++ "\nGO\n".toList))) :=
  have ha : Scan.EndsBare "CREATE PROCEDURE p AS SELECT (1; BEGIN x".toList "\nGO\n".toList := by
    decide +kernel
  ⟨ha, splitStatements_batch (by decide) ha (by decide +kernel)⟩

end SqlOutline
