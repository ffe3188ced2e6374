import SqlOutline.Proofs.Lexeme.Run
import SqlOutline.Proofs.Statement.Coverage

/-!
# Statements of scripts that are put together

Behind a semicolon and a line feed, the scanner knows what it knows at the start of a text. The
splitter forgets everything at a lexeme that ends a statement, except for a delimiter in force.

## Main definitions

* `IsStatement` — a text that a semicolon turns into one statement.

## Main results

* `groups_append`, `groups_shift` — groups of lexemes that are put together or moved.
* `scanScript_append` — the scanner at a statement.
* `splitStatements_append` — a statement in front of a script.
-/

namespace SqlOutline

open List Text Lexeme Progress Statement

/-! ## Lexemes that are put together -/

variable {p : Progress} {ls : List Lexeme} {m : Lexeme}

namespace Progress

/-- What the splitter knows behind some lexemes, before the lexeme `after`. -/
def run (p : Progress) (after : Option Lexeme) : List Lexeme → Progress
  | [] => p
  | l :: ls => (p.step l (ls.head?.or after)).run after ls

/-- The groups that some lexemes before the lexeme `after` finish. -/
def emitted (p : Progress) (after : Option Lexeme) : List Lexeme → List (List Lexeme)
  | [] => []
  | l :: ls => p.closed l ++ (p.step l (ls.head?.or after)).emitted after ls

/-- **Groups of lexemes that are put together**: of what follows, the first lexemes see only the
next one. -/
lemma groups_append (p : Progress) (ls ms : List Lexeme) :
    p.groups (ls ++ ms) = p.emitted ms.head? ls ++ (p.run ms.head? ls).groups ms := by
  induction ls generalizing p with
  | nil => rfl
  | cons l ls ih =>
    rw [cons_append, groups, ih, head?_append, emitted, run, append_assoc]

/-- Of the lexemes that are no directive and no delimiter, one ends a statement only if no delimiter
other than the semicolon is in force, and leaves it so. -/
lemma customBehind_of_ends {l : Lexeme} (h : p.ends l)
    (hl : l.isBoundary = false) : p.customBehind l = false := by
  have hkind : l.kind ≠ .directive := by
    rintro hk
    simp [Lexeme.isBoundary, hk] at hl
  rw [ends, hl, Bool.false_or] at h
  rw [customBehind, if_neg hkind]
  simp only [Bool.and_eq_true, Bool.not_eq_true'] at h
  exact h.1.2

lemma groups_append_of_ends (h : (p.run (some m) ls).ends m) (ms : List Lexeme) :
    p.groups (ls ++ m :: ms) = p.groups (ls ++ [m]) ++
      groups { custom := (p.run (some m) ls).customBehind m, before := some m } ms := by
  rw [groups_append, groups_append, head?_cons, head?_cons, groups, groups, step,
    if_pos h, step, if_pos h, append_assoc, append_assoc]
  rfl

end Progress

/-! ## Offsets -/

/-- What is known about a statement of a script with `n` bytes put in front. -/
def Splitter.shift (n : Nat) (s : Splitter) : Splitter :=
  { s with extent := s.extent.map fun e => (n + e.1, n + e.2) }

namespace Splitter

variable (n : Nat) (s : Splitter) (before : Option Lexeme) (l : Lexeme) (after : Option Lexeme)

lemma blockMark_shift :
    blockMark (before.map (Lexeme.shift n)) (l.shift n) (after.map (Lexeme.shift n)) =
      blockMark before l after := by
  cases before <;> cases after <;> rfl

lemma observeHeader_shift (i : Nat) :
    (s.shift n).observeHeader i (l.shift n) (after.map (Lexeme.shift n)) =
      (s.observeHeader i l after).shift n := by
  unfold observeHeader
  rw [apply_ite (shift n), apply_ite (shift n), apply_ite (shift n), apply_ite (shift n),
    apply_ite (shift n)]
  cases after <;> rfl

lemma observeParen_shift : (s.shift n).observeParen (l.shift n) = (s.observeParen l).shift n := by
  unfold observeParen
  rw [apply_ite (shift n), apply_ite (shift n)]
  rfl

lemma observeBlock_shift (m : BlockMark) :
    (s.shift n).observeBlock m = (s.observeBlock m).shift n := by
  cases m with
  | opens => rfl
  | closes =>
    unfold observeBlock
    dsimp only
    rw [apply_ite (shift n)]
    rfl
  | none => rfl

lemma observeBodyWord_shift : (s.shift n).observeBodyWord (before.map (Lexeme.shift n)) (l.shift n)
      (after.map (Lexeme.shift n)) = (s.observeBodyWord before l after).shift n := by
  unfold observeBodyWord
  rw [apply_ite (shift n), apply_ite (shift n), apply_ite (shift n)]
  cases before <;> cases after <;> rfl

lemma observeDeclare_shift (i : Nat) :
    (s.shift n).observeDeclare i (l.shift n) (after.map (Lexeme.shift n)) =
      (s.observeDeclare i l after).shift n := by
  unfold observeDeclare
  rw [apply_ite (shift n)]
  cases after <;> rfl

lemma observe_shift :
    (s.shift n).observe (before.map (Lexeme.shift n)) (l.shift n) (after.map (Lexeme.shift n)) =
      (s.observe before l after).shift n := by
  have hextent : ({ s.shift n with
      extent := some (((s.shift n).extent.map (·.1)).getD (l.shift n).start, (l.shift n).stop)
      count := s.count + 1 } : Splitter) =
      shift n { s with
        extent := some ((s.extent.map (·.1)).getD l.start, l.stop)
        count := s.count + 1 } := by
    rw [stop_shift]
    cases h : s.extent <;> simp [shift, h]
  unfold observe
  dsimp only
  rw [← observeDeclare_shift, ← observeBodyWord_shift, ← observeBlock_shift, ← observeParen_shift,
    apply_ite (shift n), ← observeHeader_shift, ← hextent, blockMark_shift]
  rfl

end Splitter

/-- What is known in a script with `n` bytes put in front. -/
def Progress.shift (n : Nat) (p : Progress) : Progress :=
  { p with
    splitter := p.splitter.shift n
    before := p.before.map (Lexeme.shift n)
    current := p.current.map (Lexeme.shift n) }

namespace Progress

variable (n : Nat) (p : Progress)

lemma ends_shift (l : Lexeme) : (p.shift n).ends (l.shift n) = p.ends l := rfl

lemma step_shift (l : Lexeme) (after : Option Lexeme) :
    (p.shift n).step (l.shift n) (after.map (Lexeme.shift n)) = (p.step l after).shift n := by
  have hobserve := Splitter.observe_shift n p.splitter p.before l after
  unfold step
  rw [ends_shift]
  split_ifs
  · rfl
  · simp only [shift, hobserve, map_append, map_cons, map_nil, Option.map_some]

lemma finished_shift : (p.shift n).finished = p.finished.map (List.map (Lexeme.shift n)) := by
  unfold finished shift
  cases p.current <;> rfl

lemma closed_shift (l : Lexeme) :
    (p.shift n).closed (l.shift n) = (p.closed l).map (List.map (Lexeme.shift n)) := by
  unfold closed
  rw [ends_shift]
  split_ifs
  · exact finished_shift n p
  · rfl

/-- **Groups depend on offsets only by a shift.** -/
lemma groups_shift (ls : List Lexeme) : (p.shift n).groups (ls.map (Lexeme.shift n)) =
      (p.groups ls).map (List.map (Lexeme.shift n)) := by
  induction ls generalizing p with
  | nil => exact finished_shift n p
  | cons l ls ih =>
    rw [map_cons, groups, groups, map_append, closed_shift, head?_map, step_shift, ih]

end Progress

/-- A statement of a script with `n` bytes put in front. -/
def Statement.shift (n : Nat) (s : Statement) : Statement := { s with offset := n + s.offset }

lemma ofGroup_shift (x t : Text) {g : List Lexeme} (hne : g ≠ []) :
    ofGroup (x ++ t) (g.map (shift (byteLength x))) =
      (ofGroup t g).shift (byteLength x) := by
  have hstart : groupStart (g.map (shift (byteLength x))) =
      byteLength x + groupStart g := by
    obtain ⟨l, f, rfl⟩ := exists_cons_of_ne_nil hne
    rfl
  have hstop : groupStop (g.map (shift (byteLength x))) = byteLength x + groupStop g := by
    rw [groupStop, groupStop, getLast?_map, getLast?_eq_getLast_of_ne_nil hne]
    exact stop_shift _ _
  rw [ofGroup, hstart, hstop, slice_shift]
  rfl

/-! ## The lexeme before -/

lemma Lexeme.isWord_eq_false {l : Lexeme} (h : l.kind ≠ .word) (w : String) :
    l.isWord w = false := by
  rw [isWord, beq_eq_false_iff_ne.mpr h, Bool.false_and]

lemma Splitter.observe_of_not_word (s : Splitter) (hm : m.kind ≠ .word) (l : Lexeme)
    (after : Option Lexeme) : s.observe (some m) l after = s.observe none l after := by
  have hany : ∀ w, (some m).any (·.isWord w) = (none : Option Lexeme).any (·.isWord w) :=
    isWord_eq_false hm
  have hmark : blockMark (some m) l after = blockMark none l after := by
    unfold blockMark
    rw [hany]
  unfold observe observeBodyWord
  rw [hany, hmark]

namespace Progress

lemma groups_of_not_word (hm : m.kind ≠ .word) (p : Progress) (ls : List Lexeme) :
    groups { p with before := some m } ls = groups { p with before := none } ls := by
  cases ls with
  | nil => rfl
  | cons l ls =>
    have hstep : step { p with before := some m } l ls.head? =
        step { p with before := none } l ls.head? := by
      unfold step
      rw [p.splitter.observe_of_not_word hm]
      rfl
    rw [groups, hstep]
    rfl

end Progress

/-! ## A statement in front of a script -/

/-- A text that a semicolon turns into one statement. -/
def IsStatement (a : Text) : Prop := splitStatements (a ++ [';']) = [⟨0, a⟩]

instance (a : Text) : Decidable (IsStatement a) :=
  inferInstanceAs (Decidable (splitStatements (a ++ [';']) = [⟨0, a⟩]))

def semicolonBehind (a : Text) : Lexeme := ⟨.symbol, [';'], byteLength a⟩

namespace Scan

variable {st : State}

lemma piece_semicolon (hst : st.delimiter = none) {u : Text}
    (hu : u = [] ∨ ∃ z, u = '\n' :: z) : piece true st ';' u = lexeme .symbol 0 st := by
  have hdir : directive? st ';' u = none := by
    rcases hu with rfl | ⟨z, rfl⟩
    · rfl
    · exact (directive?_append_newline (t := []) (z := z) st ';').trans rfl
  have hplain : plainPiece st ';' u = lexeme .symbol 0 st := by
    rcases hu with rfl | ⟨z, rfl⟩ <;> rfl
  unfold piece
  rw [if_neg (by decide)]
  dsimp only
  rw [hdir, hst, ite_self]
  exact hplain

lemma run_symbol {script : Bool} {c : Char} {t : Text} {kind : LexemeKind}
    (hp : piece script st c t = lexeme kind 0 st) (i : Nat) :
    Run script st i (c :: t) [⟨kind, [c], i⟩] { st with freshLine := false } (i + byteLength [c])
      t :=
  run_of_piece (r := []) hp i

lemma run_semicolon (hst : st.delimiter = none) (i : Nat) (z : Text) :
    Run true st i (';' :: '\n' :: z) [⟨.symbol, [';'], i⟩] {} (i + 2) z := by
  have hsemi := run_symbol (piece_semicolon hst (Or.inr ⟨z, rfl⟩)) i
  have hfeed : Run true { st with freshLine := false } (i + 1) ('\n' :: z) [] {} (i + 2) z := by
    apply Run.gap (by rfl)
    rw [hst]
    exact .refl _ _ _
  exact hsemi.trans hfeed

/-- **The scanner at a statement**: the lexemes of a text before its semicolon, if a run reaches the
semicolon with no other delimiter in force, are also those before any other script. -/
lemma scanScript_append {a : Text}
    (hrun : Run true {} 0 (a ++ [';']) ls st (byteLength a) [';']) (hst : st.delimiter = none) :
    scanScript (a ++ [';']) = ls ++ [semicolonBehind a] ∧
      ∀ b, scanScript (a ++ ';' :: '\n' :: b) =
        ls ++ semicolonBehind a :: (scanScript b).map (shift (byteLength a + 2)) := by
  constructor
  · have hall := hrun.trans (run_symbol (piece_semicolon hst (Or.inl rfl)) _)
    rw [scanScript, hall.scanFrom_eq, scanFrom, append_nil]
    rfl
  · intro b
    have hlong := hrun.append_newline State.wellFormed_init (by simp) b
    rw [append_assoc] at hlong
    have hall := (hlong.trans (run_semicolon hst _ b)).scanFrom_eq
    rw [← Nat.add_zero (byteLength a + 2), scanFrom_add, append_assoc] at hall
    exact hall

end Scan

namespace IsStatement

variable {a : Text}

lemma splitsExactly (ha : IsStatement a) :
    SplitsExactly (a ++ [';']) (scanScript (a ++ [';'])) [⟨0, a⟩] := by
  rw [IsStatement, splitStatements_eq_groups] at ha
  rw [← ha]
  exact (grouping_scanScript _).splitsExactly (Scan.lossless_scanFrom true {} _)

/-- A run reaches the semicolon behind a statement, and no other delimiter is in force there. -/
lemma exists_run (ha : IsStatement a) :
    ∃ ls st, Scan.Run true {} 0 (a ++ [';']) ls st (byteLength a) [';'] ∧ st.delimiter = none := by
  have hsplit := ha.splitsExactly
  obtain ⟨-, l, hl, hstop⟩ := hsplit.lexemes_at_ends _ (mem_singleton_self _)
  obtain ⟨ls, st, hrun, -⟩ := Scan.exists_run_to_stop hl (by decide) hstop
  rw [Nat.zero_add] at hrun
  refine ⟨ls, st, hrun, hrun.delimiter_eq fun m hm => ?_⟩
  have hmem : m ∈ scanScript (a ++ [';']) := by
    rw [scanScript, hrun.scanFrom_eq]
    exact mem_append_left _ hm
  refine (hsplit.not_inside _ (mem_singleton_self _) m hmem ⟨Nat.zero_le _, ?_⟩).1
  exact (hrun.stop_le hm).trans (Nat.le_of_eq (Nat.zero_add _).symm)

/-- The semicolon behind a statement ends it. -/
lemma ends_semicolon (ha : IsStatement a)
    (hls : scanScript (a ++ [';']) = ls ++ [semicolonBehind a]) :
    (run {} (some (semicolonBehind a)) ls).ends (semicolonBehind a) := by
  by_contra hends
  set p := run {} (some (semicolonBehind a)) ls
  set g := p.current ++ [semicolonBehind a] with hg
  have hmem : g ∈ groups {} (scanScript (a ++ [';'])) := by
    rw [hls, groups_append]
    apply mem_append_right
    change g ∈ p.groups [semicolonBehind a]
    rw [groups, closed, if_neg hends, nil_append, step,
      if_neg hends, groups, finished, if_neg (by simp)]
    exact mem_singleton_self g
  have hstatement : ofGroup (a ++ [';']) g = ⟨0, a⟩ := by
    rw [IsStatement, splitStatements_eq_groups] at ha
    exact mem_singleton.mp (ha ▸ mem_map_of_mem hmem)
  have hinside : (semicolonBehind a).Inside (ofGroup (a ++ [';']) g) :=
    inside_ofGroup (Scan.lossless_scanFrom true {} _) ((grouping_scanScript _).of_mem hmem).2.1
      (by rw [hg]; simp)
  have hstop : byteLength a + 1 ≤ 0 + byteLength a := (hstatement ▸ hinside).2
  omega

lemma ofGroup_eq (ha : IsStatement a) (z : Text) :
    (groups {} (scanScript (a ++ [';']))).map (ofGroup (a ++ z)) =
      [⟨0, a⟩] := by
  rw [IsStatement, splitStatements_eq_groups] at ha
  obtain ⟨g, hgroups, hg⟩ := map_eq_singleton_iff.mp ha
  obtain ⟨hne, hsub, -⟩ := (grouping_scanScript (a ++ [';'])).of_mem
    (hgroups ▸ mem_singleton_self g)
  have hstart : groupStart g = 0 := congrArg offset hg
  have hstop : groupStop g = byteLength a := by
    rw [← stop_ofGroup (Scan.lossless_scanFrom true {} _) hsub hne, hg]
    exact Nat.zero_add _
  have hslice : slice 0 (byteLength a) (a ++ z) = a := by
    simpa using slice_append [] a z
  rw [hgroups, map_singleton, ofGroup, hstart, hstop, hslice]

end IsStatement

/-- **A statement in front of a script**: the statement comes first, and the statements of the
script follow as if it stood alone, behind the statement, its semicolon and the line feed. -/
lemma splitStatements_append {a : Text} (ha : IsStatement a) (b : Text) :
    splitStatements (a ++ ';' :: '\n' :: b) =
      ⟨0, a⟩ :: (splitStatements b).map (Statement.shift (byteLength a + 2)) := by
  obtain ⟨ls, st, hrun, hst⟩ := ha.exists_run
  obtain ⟨hls, hscan⟩ := Scan.scanScript_append hrun hst
  have hends := ha.ends_semicolon hls
  have hcustom := customBehind_of_ends hends rfl
  have hbehind : groups { custom := false, before := some (semicolonBehind a) }
      ((scanScript b).map (Lexeme.shift (byteLength a + 2))) =
      (groups {} (scanScript b)).map (List.map (Lexeme.shift (byteLength a + 2))) :=
    (groups_of_not_word LexemeKind.noConfusion {} _).trans (groups_shift _ {} _)
  have hsource : a ++ ';' :: '\n' :: b = (a ++ [';', '\n']) ++ b := by
    rw [append_assoc]
    rfl
  have hlen : byteLength (a ++ [';', '\n']) = byteLength a + 2 := byteLength_append _ _
  rw [splitStatements_eq_groups, hscan b, groups_append_of_ends hends, hcustom, map_append,
    ← hls, ha.ofGroup_eq, splitStatements_eq_groups, hbehind, map_map, map_map, singleton_append]
  refine congrArg _ (map_congr_left fun g hg => ?_)
  have hne := ((grouping_scanScript b).of_mem hg).1
  rw [Function.comp_apply, Function.comp_apply, hsource, ← hlen]
  exact ofGroup_shift _ b hne

/-! ## Lists of statements -/

/-- **Statements, each ended by a semicolon**, in front of a script. -/
lemma texts_splitStatements_append {as : List Text} (has : ∀ a ∈ as, IsStatement a) (b : Text) :
    (splitStatements (as.flatMap (· ++ [';', '\n']) ++ b)).map (·.text) =
      as ++ (splitStatements b).map (·.text) := by
  induction as with
  | nil => rfl
  | cons a as ih =>
    obtain ⟨ha, has⟩ := forall_mem_cons.mp has
    have hsource : (a :: as).flatMap (· ++ [';', '\n']) ++ b =
        a ++ ';' :: '\n' :: (as.flatMap (· ++ [';', '\n']) ++ b) := by
      simp
    rw [hsource, splitStatements_append ha, map_cons, map_map, cons_append, ← ih has]
    rfl

lemma intercalate_concat (sep : Text) (as : List Text) (z : Text) :
    sep.intercalate (as ++ [z]) = as.flatMap (· ++ sep) ++ z := by
  induction as with
  | nil => simp
  | cons a as ih =>
    rw [cons_append, intercalate_cons_of_ne_nil (by simp), ih, flatMap_cons,
      append_assoc, append_assoc, append_assoc]

/-- **Splitting is compositional.** A text that a semicolon turns into one statement can be put in
front of any script, whether well formed or not: it is the first statement, and the others are those
of the script, behind the text and its two separating bytes. So a list of such texts, joined by
semicolons and line feeds and ended by a semicolon, is found again; without the semicolon at the
end, it is found again exactly if the last text is found when it stands alone. -/
theorem splitStatements_compositional :
    (∀ a, IsStatement a → ∀ b, splitStatements (a ++ ';' :: '\n' :: b) =
      ⟨0, a⟩ :: (splitStatements b).map (Statement.shift (byteLength a + 2))) ∧
    (∀ as, (∀ a ∈ as, IsStatement a) →
      (splitStatements ([';', '\n'].intercalate as ++ [';'])).map (·.text) = as) ∧
    (∀ as z, (∀ a ∈ as, IsStatement a) →
      ((splitStatements ([';', '\n'].intercalate (as ++ [z]))).map (·.text) = as ++ [z] ↔
        (splitStatements z).map (·.text) = [z])) := by
  refine ⟨fun a ha b => splitStatements_append ha b, fun as has => ?_, fun as z has => ?_⟩
  · rcases eq_nil_or_concat' as with rfl | ⟨as, z, rfl⟩
    · decide +kernel
    · have hz : IsStatement z := has z (by simp)
      rw [intercalate_concat, append_assoc,
        texts_splitStatements_append (fun a ha => has a (by simp [ha])), hz]
      rfl
  · rw [intercalate_concat, texts_splitStatements_append has, append_cancel_left_eq]

/-- A block with a semicolon inside is one statement, before a script that opens a parenthesis and a
quote and closes neither. -/
theorem splitStatements_block_append :
    IsStatement "BEGIN a; END".toList ∧
      splitStatements ("BEGIN a; END".toList ++ ';' :: '\n' :: "f(; 'x".toList) =
        ⟨0, "BEGIN a; END".toList⟩ ::
          (splitStatements "f(; 'x".toList).map
            (Statement.shift (byteLength "BEGIN a; END".toList + 2)) :=
  have ha : IsStatement "BEGIN a; END".toList := by decide +kernel
  ⟨ha, splitStatements_compositional.1 _ ha _⟩

/-- Without a semicolon at the end, a list of statements need not be found again: the last one can
be a line that ends a batch. -/
theorem splitStatements_batch_line :
    IsStatement "GO".toList ∧
      (splitStatements ([';', '\n'].intercalate ["GO".toList])).map (·.text) ≠ ["GO".toList] := by
  decide +kernel

end SqlOutline
