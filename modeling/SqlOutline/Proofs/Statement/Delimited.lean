import SqlOutline.Proofs.Statement.Batch

/-!
# Statements behind delimiters

Where a delimiter other than the semicolon is in force, the scanner looks for it only where a lexeme
starts: behind the word `END`, the dollar sign of `END$` belongs to the word.

## Main definitions

* `EndedBy`, `Detached` — a delimiter that is read behind a text, and one that can be told from it.

## Main results

* `endedBy_of_detached` — a detached delimiter is read.
* `splitWithin_delimitedText` — texts with a delimiter behind each are found again.
* `splitStatements_delimited` — exactly these lists of texts are.
-/

namespace SqlOutline

open List Text Statement Scan

variable {st : State} {ls : List Lexeme} {l : Lexeme}

namespace Scan

/-! ## Runs to the end of a lexeme -/

lemma Run.freshLine_of_stop {script : Bool} {st' : State} {i j : Nat} {t u : Text}
    (h : Run script st i t ls st' j u) (hl : l ∈ ls)
    (hstop : l.stop = j) : st'.freshLine = false := by
  induction h with
  | refl => cases hl
  | gap _ _ ih => exact ih hl hstop
  | @lexeme st st' i j c t u ls kind hk h ih =>
    rcases mem_cons.mp hl with rfl | hl
    · -- the run reads nothing behind the lexeme
      obtain ⟨x, hx, hj⟩ := h.exists_append
      rw [Lexeme.stop] at hstop
      dsimp only at hstop
      obtain rfl : x = [] := byteLength_eq_zero.mp (by omega)
      obtain ⟨-, rfl, -⟩ := h.eq_of_length_le (Nat.le_of_eq (congrArg length hx))
      by_contra hne
      rw [(piece_freshLine (Bool.not_eq_false _ ▸ hne)).1] at hk
      cases hk
    · exact ih hl hstop

lemma Lossless.mem_of_start {t : Text} {rest : List Lexeme} (h : Lossless t (ls ++ rest))
    {m : Lexeme} (hl : l ∈ ls) (hm : m ∈ ls ++ rest) (hstart : m.start = 0) : m ∈ ls := by
  rcases mem_append.mp hm with hm | hm
  · exact hm
  · have hle := (pairwise_append.mp h.ordered).2.2 l hl m hm
    have hlt := h.start_lt_stop l (mem_append_left _ hl)
    omega

/-! ## The delimiter behind a text -/

/-- The lexemes of a text that stands where the delimiter `d` is in force. -/
def scanWithin (d t : Text) : List Lexeme := scanFrom true { delimiter := some d } 0 t

/-- The delimiter `d` behind the text `s`. -/
def markBehind (d s : Text) : Lexeme := ⟨.delimiter, d, byteLength s⟩

/-- Lexemes that fill a text from its start to its end, with no directive or delimiter among
them. -/
structure Fill (ls : List Lexeme) (s : Text) : Prop where
  first : ∃ l ∈ ls, l.start = 0
  last : ∃ l ∈ ls, l.stop = byteLength s
  plain : ∀ l ∈ ls, l.isBoundary = false

instance (ls : List Lexeme) (s : Text) : Decidable (Fill ls s) :=
  decidable_of_iff ((∃ l ∈ ls, l.start = 0) ∧ (∃ l ∈ ls, l.stop = byteLength s) ∧
    ∀ l ∈ ls, l.isBoundary = false) ⟨fun h => ⟨h.1, h.2.1, h.2.2⟩, fun h => ⟨h.1, h.2, h.3⟩⟩

/-- The delimiter `d` is read behind the text `s`, which is filled with lexemes up to there. -/
def EndedBy (d s : Text) : Prop :=
  ∃ ls, scanWithin d (s ++ d) = ls ++ [markBehind d s] ∧ Fill ls s

instance (d s : Text) : Decidable (EndedBy d s) :=
  decidable_of_iff (scanWithin d (s ++ d) = (scanWithin d (s ++ d)).dropLast ++ [markBehind d s] ∧
    Fill (scanWithin d (s ++ d)).dropLast s) (by
      constructor
      · rintro ⟨h, hfill⟩
        exact ⟨_, h, hfill⟩
      · rintro ⟨ls, h, hfill⟩
        rw [h, dropLast_concat]
        exact ⟨rfl, hfill⟩)

section Mark

variable {d s : Text}

lemma IsMark.exists_cons (hd : IsMark d) :
    ∃ m ms, d = m :: ms ∧ isBlank m = false ∧ isAsciiBlank m = false := by
  obtain ⟨m, ms, rfl⟩ := exists_cons_of_ne_nil hd.ne_nil
  have hm : isBlank m = false := hd.not_blank m mem_cons_self
  refine ⟨m, ms, rfl, hm, ?_⟩
  by_contra h
  rw [isBlank_of_isAsciiBlank (Bool.not_eq_false _ ▸ h)] at hm
  cases hm

lemma IsMark.wellFormed (hd : IsMark d) : ({ delimiter := some d } : State).WellFormed := by
  intro mark hmark
  obtain rfl : d = mark := Option.some.inj hmark
  exact ⟨hd.ne_nil, hd.not_blank⟩

lemma IsMark.run (hd : IsMark d) (hst : st.delimiter = some d)
    (hfresh : st.freshLine = false) (i : Nat) (z : Text) :
    Run true st i (d ++ z) [⟨.delimiter, d, i⟩] st (i + byteLength d) z := by
  obtain ⟨m, ms, rfl, -, hm⟩ := hd.exists_cons
  have hp : piece true st m (ms ++ z) = lexeme .delimiter ms.length st := by
    have hpre : (m :: ms).isPrefixOf (m :: (ms ++ z)) :=
      isPrefixOf_iff_prefix.mpr <| prefix_append (m :: ms) z
    unfold piece
    rw [if_neg (by simp [hm]), hfresh, hst]
    exact if_pos hpre
  have hrun := run_of_piece hp i
  rwa [← hfresh] at hrun

lemma IsMark.run_newline (hd : IsMark d) (hst : st.delimiter = some d)
    (hfresh : st.freshLine = false) (i : Nat) (z : Text) :
    Run true st i (d ++ '\n' :: z) [⟨.delimiter, d, i⟩] { delimiter := some d }
      (i + byteLength d + 1) z := by
  refine (hd.run hst hfresh i ('\n' :: z)).trans (.gap rfl ?_)
  rw [show (piece true st '\n' z).state = { delimiter := some d } by
    simp [piece, isAsciiBlank, hst]]
  exact .refl _ _ _

/-- **A run to the delimiter**: if a lexeme of a text ends where the delimiter stands, and no
directive or delimiter stands before, a run reaches the delimiter and the delimiter is read. -/
lemma IsMark.exists_run (hd : IsMark d) {z : Text}
    (hl : l ∈ scanWithin d (s ++ (d ++ z))) (hstop : l.stop = byteLength s)
    (hplain : ∀ m ∈ scanWithin d (s ++ (d ++ z)), m.stop ≤ byteLength s → m.isBoundary = false) :
    ∃ ls st, Run true { delimiter := some d } 0 (s ++ (d ++ z)) ls st (byteLength s) (d ++ z) ∧
      l ∈ ls ∧ (∀ m ∈ ls, m.isBoundary = false) ∧ st.delimiter = some d ∧ st.freshLine = false := by
  obtain ⟨m, ms, rfl, hm, -⟩ := hd.exists_cons
  rw [cons_append] at hl hplain ⊢
  obtain ⟨ls, st, hrun, hmem⟩ := exists_run_to_stop hl hm (hstop.trans (Nat.zero_add _).symm)
  rw [Nat.zero_add] at hrun
  have hbound : ∀ k ∈ ls, k.isBoundary = false := by
    intro k hk
    refine hplain k ?_ (hrun.stop_le hk)
    rw [scanWithin, hrun.scanFrom_eq]
    exact mem_append_left _ hk
  refine ⟨ls, st, hrun, hmem, hbound, hrun.delimiter_eq fun k hk hdir => ?_,
    hrun.freshLine_of_stop hmem hstop⟩
  have := hbound k hk
  rw [Lexeme.isBoundary, hdir] at this
  cases this

/-- **A text with its delimiter** is a run, whatever lines follow. -/
lemma EndedBy.exists_run (hd : IsMark d) (h : EndedBy d s) :
    ∃ ls, Fill ls s ∧ ∀ z, Run true { delimiter := some d } 0 (s ++ (d ++ '\n' :: z))
      (ls ++ [markBehind d s]) { delimiter := some d } (byteLength (s ++ d) + 1) z := by
  obtain ⟨ls, hscan, hfill⟩ := h
  obtain ⟨l, hl, hstop⟩ := hfill.last
  obtain ⟨ls', st, hrun, hmem, -, hst, hfresh⟩ := hd.exists_run (z := []) (s := s) (l := l)
    (by rw [append_nil, hscan]; exact mem_append_left _ hl) hstop (by
      intro m hm hle
      rw [append_nil, hscan] at hm
      rcases mem_append.mp hm with hm | hm
      · exact hfill.plain m hm
      · -- the delimiter does not end before itself
        rw [mem_singleton.mp hm, Lexeme.stop] at hle
        have := byteLength_pos hd.ne_nil
        change byteLength s + byteLength d ≤ byteLength s at hle
        omega)
  have hls : ls = ls' := by
    have hall := (hrun.trans (hd.run hst hfresh _ [])).scanFrom_eq
    rw [scanFrom, append_nil, append_nil] at hall
    exact (append_inj' (hscan.symm.trans hall) rfl).1
  subst hls
  refine ⟨ls, hfill, fun z => ?_⟩
  have hlong := hrun.append_newline hd.wellFormed (by simpa using hd.ne_nil) z
  rw [append_nil, append_assoc] at hlong
  rw [byteLength_append]
  exact hlong.trans (hd.run_newline hst hfresh _ z)

/-- A delimiter that can be told from the text before it: it starts with no character that could
continue a lexeme, and it is not found earlier than behind the text. A bracket of the text is not
closed by it, and a dollar sign at its start is doubled, but not tripled. The text does not end in
white space, which only words outside ASCII can. -/
structure Detached (d s : Text) : Prop where
  head : ∀ c ∈ d.head?, isSticky c = false
  dollar : d.head? = some '$' → (d.drop 1).head? = some '$' ∧ s.getLast? ≠ some '$'
  bracket : ']' ∉ d
  last : ∀ c ∈ s.getLast?, isBlank c = false
  not_infix : ¬ d <:+: s ++ d.dropLast

lemma Detached.separates (h : Detached d s) (hd : IsMark d) : Separates d where
  head := h.head
  dollar hc := (h.dollar hc).1
  bracket hmem := h.bracket (mem_of_mem_take hmem)
  exists_line := ⟨d, [], (append_nil d).symm, hd.ne_nil, by simp [BreaksLine], fun c hc =>
    ⟨hd.not_blank c hc, hd.not_alnum c hc⟩⟩

lemma Detached.joins (h : Detached d s) (hd : IsMark d) : Joins (some d) s d [] where
  last := h.last
  dollar hc := ⟨nofun, (h.dollar hc).2⟩
  mark_eq := by
    rintro m hm u hu ⟨x, rfl⟩
    obtain rfl : d = m := Option.some.inj hm
    have hno : '\n' ∉ d := by
      intro hmem
      have := hd.not_blank _ hmem
      revert this
      decide
    -- the delimiter is found neither in the text nor across its end
    have hcross : ¬ d <+: u ++ d := by
      intro hpre
      have hpart : u ++ d.dropLast <+: u ++ d :=
        (prefix_append_right_inj u).mpr <| dropLast_prefix d
      have hlen : d.length ≤ (u ++ d.dropLast).length := by
        have := length_pos_iff.mpr hu
        rw [length_append, length_dropLast]
        omega
      apply h.not_infix
      rw [append_assoc]
      exact (prefix_of_prefix_length_le hpre hpart hlen).isInfix.trans
        (suffix_append x _).isInfix
    have hin : ¬ d <+: u := fun hpre => hcross (hpre.trans (prefix_append u d))
    rw [isPrefixOf_append_newline _ _ hno, Bool.eq_iff_iff, isPrefixOf_iff_prefix,
      isPrefixOf_iff_prefix]
    exact iff_of_false hcross hin

/-- **A detached delimiter is read** behind a text that starts and ends with a lexeme. -/
lemma endedBy_of_detached (hd : IsMark d) (hs : Fill (scanWithin d (s ++ ['\n'])) s)
    (h : Detached d s) : EndedBy d s := by
  obtain ⟨l₀, hl₀, hstart⟩ := hs.first
  obtain ⟨l, hl, hstop⟩ := hs.last
  have hdir : ∀ m ∈ scanWithin d (s ++ ['\n']), m.kind ≠ .directive := by
    intro m hm hk
    have := hs.plain m hm
    rw [Lexeme.isBoundary, hk] at this
    cases this
  obtain ⟨ls, rest, st, hscan, hmem, hrun⟩ :=
    exists_run_append_of_separates (h.separates hd) hl hstop (h.joins hd) hdir
  have hsub : ∀ m ∈ ls, m ∈ scanWithin d (s ++ ['\n']) := by
    intro m hm
    rw [scanWithin, hscan]
    exact mem_append_left rest hm
  have hst := hrun.delimiter_eq fun m hm => hdir m (hsub m hm)
  have hmark := hd.run hst (hrun.freshLine_of_stop hmem hstop) (byteLength s) []
  rw [append_nil] at hmark
  have hall := (hrun.trans hmark).scanFrom_eq
  rw [scanFrom, append_nil] at hall
  have hlossless := lossless_scanFrom true { delimiter := some d } (s ++ ['\n'])
  have hfirst : l₀ ∈ ls := by
    rw [hscan] at hlossless
    exact hlossless.mem_of_start hmem (hscan ▸ hl₀) hstart
  exact ⟨ls, hall, ⟨l₀, hfirst, hstart⟩, ⟨l, hmem, hstop⟩, fun m hm => hs.plain m (hsub m hm)⟩

end Mark

end Scan

/-! ## Statements where a delimiter is in force -/

def splitWithin (d t : Text) : List Statement :=
  (Progress.groups { custom := true } (scanWithin d t)).map (ofGroup t)

lemma Progress.groups_of_custom {p : Progress} (hp : p.custom)
    (hls : ∀ l ∈ ls, l.isBoundary = false) :
    p.groups ls = if p.current ++ ls = [] then [] else [p.current ++ ls] := by
  induction ls generalizing p with
  | nil =>
    rw [append_nil]
    rfl
  | cons l ls ih =>
    obtain ⟨hl, hls⟩ := forall_mem_cons.mp hls
    have hends : ¬ p.ends l := by simp [ends, hl, hp]
    have hcustom : (p.step l ls.head?).custom := by rw [step, if_neg hends, hp]
    have hcurrent : (p.step l ls.head?).current = p.current ++ [l] := by rw [step, if_neg hends]
    rw [groups, closed, if_neg hends, nil_append, ih hcustom hls, hcurrent, append_assoc,
      singleton_append]

section Within

variable {d s : Text}

lemma splitsExactly_splitWithin (d t : Text) : SplitsExactly t (scanWithin d t) (splitWithin d t) :=
  (Progress.grouping (p := { custom := true }) (by simp) _).splitsExactly
    (lossless_scanFrom true _ t)

/-- **A text with its delimiter** comes first, and the statements of the text behind it follow. -/
lemma Scan.EndedBy.splitWithin_append (hd : IsMark d) (h : EndedBy d s) (z : Text) :
    splitWithin d (s ++ (d ++ '\n' :: z)) =
      ⟨0, s⟩ :: (splitWithin d z).map (shift (byteLength (s ++ d) + 1)) := by
  obtain ⟨ls, hfill, hrun⟩ := h.exists_run hd
  have hscan : scanWithin d (s ++ (d ++ '\n' :: z)) = ls ++ markBehind d s ::
      (scanWithin d z).map (Lexeme.shift (byteLength (s ++ d) + 1)) := by
    have hall := (hrun z).scanFrom_eq
    rw [← Nat.add_zero (byteLength (s ++ d) + 1), scanFrom_add, append_assoc] at hall
    exact hall
  have hlossless := lossless_scanFrom true { delimiter := some d } (s ++ (d ++ '\n' :: z))
  change Lossless _ (scanWithin d _) at hlossless
  rw [hscan] at hlossless
  have hsub : ls.Sublist (ls ++ markBehind d s ::
      (scanWithin d z).map (Lexeme.shift (byteLength (s ++ d) + 1))) :=
    sublist_append_left _ _
  obtain ⟨l₀, hl₀, hstart⟩ := hfill.first
  obtain ⟨l₁, hl₁, hstop⟩ := hfill.last
  have hne : ls ≠ [] := ne_nil_of_mem hl₀
  -- the text is the group of its lexemes
  have hgroup : ofGroup (s ++ (d ++ '\n' :: z)) ls = ⟨0, s⟩ := by
    have hlt : ∀ l ∈ ls, l.start < l.stop := fun l hl => hlossless.start_lt_stop l (hsub.subset hl)
    have hord := hlossless.ordered.sublist hsub
    have h₀ : groupStart ls = 0 := Nat.le_zero.mp (hstart ▸ groupStart_le hlt hord hl₀)
    have h₁ : groupStop ls = byteLength s := by
      refine Nat.le_antisymm ?_ (hstop ▸ le_groupStop hlt hord hl₁)
      obtain ⟨l, hl, hl'⟩ := exists_stop_eq hne
      rw [← hl']
      exact (pairwise_append.mp hlossless.ordered).2.2 l hl _ mem_cons_self
    have hslice : slice 0 (byteLength s) (s ++ (d ++ '\n' :: z)) = s := by
      simpa using slice_append [] s (d ++ '\n' :: z)
    rw [ofGroup, h₀, h₁, hslice]
  have hsource : s ++ (d ++ '\n' :: z) = (s ++ d ++ ['\n']) ++ z := by simp
  have hlen : byteLength (s ++ d) + 1 = byteLength (s ++ d ++ ['\n']) := by
    rw [byteLength_append _ ['\n']]
    rfl
  rw [splitWithin, hscan,
    Progress.groups_append_shift (some d) rfl _ rfl (hrun z).delimiter_eq_foldl.symm,
    Progress.groups_of_custom rfl hfill.plain, nil_append, if_neg hne, map_append,
    map_singleton, hgroup, hsource, hlen, (Progress.grouping (by simp) _).map_ofGroup_shift]
  rfl

/-- **A text that is found before its delimiter** is ended by it. -/
lemma Scan.endedBy_of_splitWithin (hd : IsMark d) {z : Text} {ss : List Statement}
    (h : splitWithin d (s ++ (d ++ '\n' :: z)) = ⟨0, s⟩ :: ss) : EndedBy d s := by
  have hsplit := splitsExactly_splitWithin d (s ++ (d ++ '\n' :: z))
  rw [h] at hsplit
  have hself : (⟨0, s⟩ : Statement) ∈ (⟨0, s⟩ : Statement) :: ss := mem_cons_self
  obtain ⟨⟨l₀, hl₀, hstart⟩, l₁, hl₁, hstop⟩ := hsplit.lexemes_at_ends _ hself
  have hstop : l₁.stop = byteLength s := hstop.trans (Nat.zero_add _)
  obtain ⟨ls, st, hrun, hmem, hplain, hst, hfresh⟩ := hd.exists_run hl₁ hstop (by
    intro m hm hle
    have := hsplit.not_inside _ hself m hm ⟨Nat.zero_le _, hle.trans (Nat.zero_add _).ge⟩
    simp [Lexeme.isBoundary, this])
  -- the delimiter is read, and what is read up to there does not depend on the line feed
  have hall := hrun.trans (hd.run hst hfresh _ ('\n' :: z))
  rw [← append_assoc] at hall
  have hshort := (hall.append_of_breaksLine (r := []) (v := []) hd.wellFormed
    (by simp [BreaksLine])).scanFrom_eq
  rw [append_nil, append_nil, scanFrom, append_nil] at hshort
  refine ⟨ls, hshort, ⟨⟨l₀, ?_, hstart⟩, ⟨l₁, hmem, hstop⟩, hplain⟩⟩
  have hlossless := lossless_scanFrom true { delimiter := some d } (s ++ (d ++ '\n' :: z))
  have hmem₀ : l₀ ∈ scanFrom true { delimiter := some d } 0 (s ++ (d ++ '\n' :: z)) := hl₀
  rw [hrun.scanFrom_eq] at hlossless hmem₀
  exact hlossless.mem_of_start hmem hmem₀ hstart

lemma Statement.shift_injective (n : Nat) : Function.Injective (shift n) := by
  rintro ⟨i, s⟩ ⟨j, t⟩ h
  obtain ⟨hoffset, htext⟩ := mk.inj h
  obtain rfl : i = j := Nat.add_left_cancel hoffset
  rw [show s = t from htext]

end Within

/-! ## Scripts with a delimiter -/

/-- Texts with the delimiter `d` and a line feed behind each, and the line that resets the
delimiter. -/
def delimitedText (d : Text) (ss : List Text) : Text :=
  ss.flatMap (fun s => s ++ (d ++ ['\n'])) ++ "DELIMITER ;\n".toList

/-- The line that sets the delimiter `d`. -/
def delimiterLine (d : Text) : Text := "DELIMITER ".toList ++ d

/-- The line that sets the delimiter `d`, and texts with `d` behind each up to the line that resets
it. -/
def delimitedScript (d : Text) (ss : List Text) : Text :=
  delimiterLine d ++ '\n' :: delimitedText d ss

/-- The texts as statements, from an offset on, with the delimiter `d` and a line feed behind
each. -/
def placedFrom (d : Text) : Nat → List Text → List Statement
  | _, [] => []
  | n, s :: ss => ⟨n, s⟩ :: placedFrom d (n + (byteLength (s ++ d) + 1)) ss

lemma placedFrom_add (d : Text) (n i : Nat) (ss : List Text) :
    placedFrom d (n + i) ss = (placedFrom d i ss).map (shift n) := by
  induction ss generalizing i with
  | nil => rfl
  | cons s ss ih =>
    rw [placedFrom, placedFrom, map_cons, Nat.add_assoc, ih]
    rfl

section Script

variable {d : Text}

lemma splitWithin_reset (d : Text) : splitWithin d "DELIMITER ;\n".toList = [] := by
  have hreset : directive? { delimiter := some d } 'D' "ELIMITER ;".toList =
      some (lexeme .directive 10 {}) := rfl
  have hrun := (run_directive_line rfl rfl hreset 0 []).scanFrom_eq
  rw [scanFrom, append_nil] at hrun
  rw [splitWithin, scanWithin]
  exact congrArg (fun ls => (Progress.groups _ ls).map _) hrun

/-- **Texts with a delimiter behind each** are found again, where the delimiter is in force, exactly
if it is read behind each of them. -/
lemma splitWithin_delimitedText (hd : Scan.IsMark d) (ss : List Text) :
    splitWithin d (delimitedText d ss) = placedFrom d 0 ss ↔ ∀ s ∈ ss, Scan.EndedBy d s := by
  induction ss with
  | nil => exact iff_of_true (splitWithin_reset d) nofun
  | cons s ss ih =>
    have htext : delimitedText d (s :: ss) = s ++ (d ++ '\n' :: delimitedText d ss) := by
      simp [delimitedText]
    have hplaced : placedFrom d 0 (s :: ss) = ⟨0, s⟩ ::
        (placedFrom d 0 ss).map (shift (byteLength (s ++ d) + 1)) := by
      rw [placedFrom, Nat.zero_add, ← placedFrom_add, Nat.add_zero]
    rw [forall_mem_cons, ← ih, htext, hplaced]
    constructor
    · intro h
      have hs := endedBy_of_splitWithin hd h
      rw [hs.splitWithin_append hd] at h
      exact ⟨hs, (shift_injective _).list_map (cons.inj h).2⟩
    · rintro ⟨hs, h⟩
      rw [hs.splitWithin_append hd, h]

lemma Scan.IsMark.run_delimiterLine (hd : IsMark d) (z : Text) :
    Run true {} 0 (delimiterLine d ++ '\n' :: z) [⟨.directive, delimiterLine d, 0⟩]
      { delimiter := some d } (byteLength (delimiterLine d) + 1) z := by
  have hset : directive? {} 'D' ("ELIMITER ".toList ++ d) =
      some (lexeme .directive ("ELIMITER ".toList ++ d).length { delimiter := some d }) := by
    rw [directive?_delimiter_line hd, length_append, Nat.add_comm]
    rfl
  have hrun := run_directive_line rfl rfl hset 0 z
  rwa [Nat.zero_add] at hrun

lemma splitStatements_delimiterLine (hd : Scan.IsMark d) (z : Text) :
    splitStatements (delimiterLine d ++ '\n' :: z) =
      (splitWithin d z).map (shift (byteLength (delimiterLine d) + 1)) := by
  have hrun := hd.run_delimiterLine z
  have hscan := hrun.scanFrom_eq
  rw [← Nat.add_zero (byteLength (delimiterLine d) + 1), scanFrom_add] at hscan
  have hgroups := Progress.groups_append_shift (p := {}) none rfl []
    (m := ⟨.directive, delimiterLine d, 0⟩) rfl hrun.delimiter_eq_foldl.symm
    (byteLength (delimiterLine d) + 1) (scanWithin d z)
  have hlen : byteLength (delimiterLine d) + 1 = byteLength (delimiterLine d ++ ['\n']) := by
    rw [byteLength_append]
    rfl
  rw [splitStatements_eq_groups, scanScript, hscan]
  refine (congrArg (map _) hgroups).trans ?_
  rw [append_cons, hlen]
  exact (Progress.grouping (by simp) _).map_ofGroup_shift _ _

/-- **A delimiter ends the current statement where it is read.** A list of texts, each with the
delimiter behind it, is split into exactly these texts, whatever semicolons, parentheses and blocks
they contain, if and only if the delimiter is read behind each of them when that text stands alone.
The delimiter is read behind every text that starts and ends with a lexeme, has no directive and no
delimiter inside, and is detached from the delimiter. -/
theorem splitStatements_delimited (hd : Scan.IsMark d) :
    (∀ ss, splitStatements (delimitedScript d ss) =
        placedFrom d (byteLength (delimiterLine d) + 1) ss ↔ ∀ s ∈ ss, Scan.EndedBy d s) ∧
      ∀ s, Scan.Fill (Scan.scanWithin d (s ++ ['\n'])) s → Scan.Detached d s →
        Scan.EndedBy d s := by
  refine ⟨fun ss => ?_, fun s hs h => endedBy_of_detached hd hs h⟩
  rw [delimitedScript, splitStatements_delimiterLine hd, ← splitWithin_delimitedText hd,
    ← Nat.add_zero (byteLength (delimiterLine d) + 1), placedFrom_add]
  exact (shift_injective _).list_map.eq_iff

/-- Two slashes end a procedure, with a semicolon inside its block, and a query behind it. -/
theorem splitStatements_delimited_slashes :
    Scan.IsMark "//".toList ∧
      splitStatements (delimitedScript "//".toList
          ["CREATE PROCEDURE p() BEGIN SELECT 1; END".toList, "SELECT (2".toList]) =
        placedFrom "//".toList (byteLength (delimiterLine "//".toList) + 1)
          ["CREATE PROCEDURE p() BEGIN SELECT 1; END".toList, "SELECT (2".toList] :=
  have hd : Scan.IsMark "//".toList := ⟨by decide, by decide, by decide, by decide⟩
  ⟨hd, ((splitStatements_delimited hd).1 _).mpr (by decide +kernel)⟩

/-- A single dollar sign does not end a procedure whose last word it continues, although the
procedure starts and ends with a lexeme, has no directive inside and does not contain the sign. -/
theorem splitStatements_delimited_dollar :
    Scan.IsMark ['$'] ∧
      Scan.Fill (Scan.scanWithin ['$'] "CREATE PROCEDURE p() BEGIN SELECT 1; END\n".toList)
        "CREATE PROCEDURE p() BEGIN SELECT 1; END".toList ∧
      '$' ∉ "CREATE PROCEDURE p() BEGIN SELECT 1; END".toList ∧
      splitStatements (delimitedScript ['$'] ["CREATE PROCEDURE p() BEGIN SELECT 1; END".toList]) =
        [⟨12, "CREATE PROCEDURE p() BEGIN SELECT 1; END$".toList⟩] :=
  ⟨⟨by decide, by decide, by decide, by decide⟩, by decide +kernel⟩

end Script

end SqlOutline
