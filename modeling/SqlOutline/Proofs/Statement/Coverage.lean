import Mathlib.Data.List.Pairwise
import SqlOutline.Proofs.Statement.Group

/-!
# Statements cover the script

The statements of a script are stretches of it, one behind the other, that start and end with
lexemes.

## Main definitions

* `SplitsExactly` — every lexeme lies in one statement, or is a mark between statements.

## Main results

* `Grouping.splitsExactly` — the statements of groups cover their lexemes.
* `splitStatements_splitsExactly` — splitting loses and duplicates nothing.
-/

namespace SqlOutline

open List Text Statement

/-! ## Stretches -/

/-- The byte offset behind a statement. -/
def Statement.stop (s : Statement) : Nat := s.offset + byteLength s.text

/-- A lexeme lies in the stretch of a statement. -/
def Lexeme.Inside (l : Lexeme) (s : Statement) : Prop := s.offset ≤ l.start ∧ l.stop ≤ s.stop

/-- A lexeme lies before or behind the stretch of a statement. -/
def Lexeme.Apart (l : Lexeme) (s : Statement) : Prop := l.stop ≤ s.offset ∨ s.stop ≤ l.start

/-- Statements that cover the lexemes of a script. -/
structure SplitsExactly (source : Text) (ls : List Lexeme) (ss : List Statement) : Prop where
  /-- No statement is empty. -/
  ne_nil : ∀ s ∈ ss, s.text ≠ []
  /-- The stretch of a statement has bytes. -/
  offset_lt_stop : ∀ s ∈ ss, s.offset < s.stop
  /-- Each statement ends before those behind it start. -/
  ordered : ss.Pairwise fun s r => s.stop ≤ r.offset
  /-- A statement is the text of its stretch. -/
  slice_eq : ∀ s ∈ ss, slice s.offset s.stop source = s.text
  /-- A statement starts where a lexeme starts and ends where one ends. -/
  lexemes_at_ends : ∀ s ∈ ss, (∃ l ∈ ls, l.start = s.offset) ∧ ∃ l ∈ ls, l.stop = s.stop
  /-- A lexeme lies in exactly one statement, or in none, and is then a directive, a delimiter or a
  semicolon. -/
  inside_or_separator : ∀ l ∈ ls, (∃! s, s ∈ ss ∧ l.Inside s) ∨
    (∀ s ∈ ss, l.Apart s) ∧ (l.kind = .directive ∨ l.kind = .delimiter ∨ l.isSymbol ';')
  /-- Neither a directive nor a delimiter lies in a statement. -/
  not_inside : ∀ s ∈ ss, ∀ l ∈ ls, l.Inside s → l.kind ≠ .directive ∧ l.kind ≠ .delimiter

/-! ## Groups stand apart -/

def Precede (g h : List Lexeme) : Prop := ∀ l ∈ g, ∀ m ∈ h, l.stop ≤ m.start

section Grouping

variable {ls : List Lexeme} {gs : List (List Lexeme)}

lemma Grouping.of_mem (h : Grouping ls gs) {g : List Lexeme} (hg : g ∈ gs) :
    g ≠ [] ∧ g.Sublist ls ∧ ∀ l ∈ g, l.isBoundary = false := by
  induction h with
  | nil => cases hg
  | separator hl h ih =>
    obtain ⟨hne, hsub, hb⟩ := ih hg
    exact ⟨hne, hsub.cons _, hb⟩
  | @group f ls gs hne hb h ih =>
    rcases mem_cons.mp hg with rfl | hg
    · exact ⟨hne, sublist_append_left _ _, hb⟩
    · obtain ⟨hne, hsub, hb⟩ := ih hg
      exact ⟨hne, hsub.trans (sublist_append_right _ _), hb⟩

lemma Grouping.pairwise_precede (h : Grouping ls gs)
    (hls : ls.Pairwise fun l m => l.stop ≤ m.start) : gs.Pairwise Precede := by
  induction h with
  | nil => exact .nil
  | separator hl h ih => exact ih (pairwise_cons.mp hls).2
  | group hne hb h ih =>
    obtain ⟨-, hls, hcross⟩ := pairwise_append.mp hls
    refine .cons (fun f hf l hl m hm => ?_) (ih hls)
    exact hcross l hl m ((h.of_mem hf).2.1.subset hm)

/-- **A lexeme is in a group or between groups**: a lexeme that is in no group is a separator, and
each group stands before or behind it.

**Proof sketch.** Induction on the cut. A separator at the head stands before all groups to come. A
separator behind a group stands behind that group, and for the other groups the induction hypothesis
applies. -/
lemma Grouping.mem_or_apart (h : Grouping ls gs)
    (hls : ls.Pairwise fun l m => l.stop ≤ m.start) {l : Lexeme} (hl : l ∈ ls) : (∃ g ∈ gs, l ∈ g) ∨
      l.isSeparator ∧ ∀ g ∈ gs, Precede [l] g ∨ Precede g [l] := by
  induction h with
  | nil => cases hl
  | separator hs h ih =>
    obtain ⟨hfirst, hls⟩ := pairwise_cons.mp hls
    rcases mem_cons.mp hl with rfl | hl
    · refine Or.inr ⟨hs, fun g hg => Or.inl fun m hm n hn => ?_⟩
      rw [mem_singleton.mp hm]
      exact hfirst n ((h.of_mem hg).2.1.subset hn)
    · exact ih hls hl
  | @group f ls gs hne hb h ih =>
    obtain ⟨-, hls, hcross⟩ := pairwise_append.mp hls
    rcases mem_append.mp hl with hf | htail
    · exact Or.inl ⟨f, mem_cons_self, hf⟩
    · rcases ih hls htail with ⟨g, hg, hlg⟩ | ⟨hs, hapart⟩
      · exact Or.inl ⟨g, mem_cons_of_mem f hg, hlg⟩
      · refine Or.inr ⟨hs, fun g hg => ?_⟩
        rcases mem_cons.mp hg with rfl | hg
        · refine Or.inr fun m hm n hn => ?_
          rw [mem_singleton.mp hn]
          exact hcross m hm l htail
        · exact hapart g hg

end Grouping

/-! ## Groups as stretches -/

section Stretch

variable {g : List Lexeme}

lemma exists_start_eq (hne : g ≠ []) : ∃ l ∈ g, l.start = groupStart g := by
  obtain ⟨l, f, rfl⟩ := exists_cons_of_ne_nil hne
  exact ⟨l, mem_cons_self, rfl⟩

lemma exists_stop_eq (hne : g ≠ []) : ∃ l ∈ g, l.stop = groupStop g := by
  refine ⟨g.getLast hne, getLast_mem hne, ?_⟩
  rw [groupStop, getLast?_eq_getLast_of_ne_nil hne]
  rfl

lemma groupStart_le (hlt : ∀ l ∈ g, l.start < l.stop)
    (hg : g.Pairwise fun l m => l.stop ≤ m.start) {l : Lexeme} (hl : l ∈ g) :
    groupStart g ≤ l.start := by
  cases g with
  | nil => cases hl
  | cons f g =>
    rcases mem_cons.mp hl with rfl | hl
    · exact Nat.le_refl _
    · have hfirst := (pairwise_cons.mp hg).1 l hl
      have hf := hlt f mem_cons_self
      exact Nat.le_trans (Nat.le_of_lt hf) hfirst

lemma le_groupStop (hlt : ∀ l ∈ g, l.start < l.stop)
    (hg : g.Pairwise fun l m => l.stop ≤ m.start) {l : Lexeme} (hl : l ∈ g) :
    l.stop ≤ groupStop g := by
  obtain ⟨f, z, rfl⟩ := (eq_nil_or_concat' g).resolve_left (ne_nil_of_mem hl)
  rw [groupStop, getLast?_concat]
  rcases mem_append.mp hl with hl | hl
  · have hlast := (pairwise_append.mp hg).2.2 l hl z (mem_singleton_self z)
    have hz := hlt z (by simp)
    exact Nat.le_trans hlast (Nat.le_of_lt hz)
  · rw [mem_singleton.mp hl]
    exact Nat.le_refl _

end Stretch

section Source

variable {source : Text} {ls g : List Lexeme} {l : Lexeme}

lemma Lexeme.Inside.not_apart {s : Statement} (h : l.Inside s) (hlt : l.start < l.stop) :
    ¬ l.Apart s := by
  obtain ⟨hstart, hstop⟩ := h
  rintro (hbefore | hbehind) <;> omega

lemma stop_ofGroup (hls : Scan.Lossless source ls) (hg : g.Sublist ls) (hne : g ≠ []) :
    (ofGroup source g).stop = groupStop g := by
  obtain ⟨l, hl, hstart⟩ := exists_start_eq hne
  obtain ⟨m, hm, hstop⟩ := exists_stop_eq hne
  have hle : groupStart g ≤ groupStop g := by
    have h₁ := hls.start_lt_stop l (hg.subset hl)
    have h₂ := le_groupStop (fun n hn => hls.start_lt_stop n (hg.subset hn))
      (hls.ordered.sublist hg) hl
    omega
  have hi : isBoundary (groupStart g) source := hstart ▸ (hls.isBoundary l (hg.subset hl)).1
  have hj : isBoundary (groupStop g) source := hstop ▸ (hls.isBoundary m (hg.subset hm)).2
  rw [stop, ofGroup, byteLength_slice hi hj hle]
  dsimp only
  omega

lemma inside_ofGroup (hls : Scan.Lossless source ls) (hg : g.Sublist ls) (hl : l ∈ g) :
    l.Inside (ofGroup source g) := by
  have hlt : ∀ m ∈ g, m.start < m.stop := fun m hm => hls.start_lt_stop m (hg.subset hm)
  have hord := hls.ordered.sublist hg
  refine ⟨groupStart_le hlt hord hl, ?_⟩
  rw [stop_ofGroup hls hg (ne_nil_of_mem hl)]
  exact le_groupStop hlt hord hl

lemma apart_ofGroup (hls : Scan.Lossless source ls) (hg : g.Sublist ls) (hne : g ≠ [])
    (h : Precede [l] g ∨ Precede g [l]) : l.Apart (ofGroup source g) := by
  rcases h with h | h
  · obtain ⟨m, hm, hstart⟩ := exists_start_eq hne
    refine Or.inl (Nat.le_trans (h l (mem_singleton_self l) m hm) (Nat.le_of_eq hstart))
  · obtain ⟨m, hm, hstop⟩ := exists_stop_eq hne
    right
    rw [stop_ofGroup hls hg hne, ← hstop]
    exact h m hm l (mem_singleton_self l)

/-- **A lexeme of a group** lies in the statement of that group and beside those of all others. -/
lemma existsUnique_inside (hls : Scan.Lossless source ls) {gs : List (List Lexeme)}
    (hgs : Grouping ls gs) (hg : g ∈ gs) (hl : l ∈ g) :
    ∃! s, s ∈ gs.map (ofGroup source) ∧ l.Inside s := by
  have hsub := (hgs.of_mem hg).2.1
  refine ⟨ofGroup source g, ⟨mem_map_of_mem hg, inside_ofGroup hls hsub hl⟩, ?_⟩
  rintro s ⟨hs, hin⟩
  obtain ⟨f, hf, rfl⟩ := mem_map.mp hs
  by_cases hfg : f = g
  · rw [hfg]
  -- two groups stand apart, so the lexeme lies beside the other one
  exfalso
  have hapart : Precede f g ∨ Precede g f := by
    have : Std.Symm fun f g : List Lexeme => Precede f g ∨ Precede g f := ⟨fun _ _ h => h.symm⟩
    have hpair : gs.Pairwise fun f g => Precede f g ∨ Precede g f :=
      (hgs.pairwise_precede hls.ordered).imp Or.inl
    exact hpair.forall hf hg hfg
  obtain ⟨hne, hfsub, -⟩ := hgs.of_mem hf
  refine hin.not_apart (hls.start_lt_stop l (hsub.subset hl)) (apart_ofGroup hls hfsub hne ?_)
  rcases hapart with h | h
  · refine Or.inr fun m hm n hn => ?_
    rw [mem_singleton.mp hn]
    exact h m hm l hl
  · refine Or.inl fun m hm n hn => ?_
    rw [mem_singleton.mp hm]
    exact h l hl n hn

end Source

/-! ## The statements of a script -/

/-- **The statements of groups** cover the lexemes that are cut into the groups. -/
lemma Grouping.splitsExactly {source : Text} {ls : List Lexeme} {gs : List (List Lexeme)}
    (hgs : Grouping ls gs) (hls : Scan.Lossless source ls) :
    SplitsExactly source ls (gs.map (ofGroup source)) := by
  have hstop : ∀ g ∈ gs, (ofGroup source g).stop = groupStop g := fun g hg =>
    stop_ofGroup hls (hgs.of_mem hg).2.1 (hgs.of_mem hg).1
  have hlt : ∀ g ∈ gs, (ofGroup source g).offset < (ofGroup source g).stop := by
    intro g hg
    obtain ⟨hne, hsub, -⟩ := hgs.of_mem hg
    obtain ⟨l, hl⟩ := exists_mem_of_ne_nil g hne
    have hin := inside_ofGroup hls hsub hl
    have := hls.start_lt_stop l (hsub.subset hl)
    unfold Lexeme.Inside at hin
    omega
  constructor
  case ne_nil =>
    intro s hs
    obtain ⟨g, hg, rfl⟩ := mem_map.mp hs
    intro hnil
    have := hlt g hg
    rw [stop, hnil] at this
    simp at this
  case offset_lt_stop =>
    intro s hs
    obtain ⟨g, hg, rfl⟩ := mem_map.mp hs
    exact hlt g hg
  case ordered =>
    rw [pairwise_map]
    refine (hgs.pairwise_precede hls.ordered).imp_of_mem fun {f g} hf hg h => ?_
    obtain ⟨l, hl, hlstop⟩ := exists_stop_eq (hgs.of_mem hf).1
    obtain ⟨m, hm, hmstart⟩ := exists_start_eq (hgs.of_mem hg).1
    rw [hstop f hf, ← hlstop]
    exact Nat.le_trans (h l hl m hm) (Nat.le_of_eq hmstart)
  case slice_eq =>
    intro s hs
    obtain ⟨g, hg, rfl⟩ := mem_map.mp hs
    rw [hstop g hg]
    rfl
  case lexemes_at_ends =>
    intro s hs
    obtain ⟨g, hg, rfl⟩ := mem_map.mp hs
    obtain ⟨hne, hsub, -⟩ := hgs.of_mem hg
    obtain ⟨l, hl, hlstart⟩ := exists_start_eq hne
    obtain ⟨m, hm, hmstop⟩ := exists_stop_eq hne
    exact ⟨⟨l, hsub.subset hl, hlstart⟩, m, hsub.subset hm, by rw [hstop g hg, hmstop]⟩
  case inside_or_separator =>
    intro l hl
    rcases hgs.mem_or_apart hls.ordered hl with ⟨g, hg, hlg⟩ | ⟨hsep, hapart⟩
    · exact Or.inl (existsUnique_inside hls hgs hg hlg)
    · refine Or.inr ⟨fun s hs => ?_, ?_⟩
      · obtain ⟨g, hg, rfl⟩ := mem_map.mp hs
        obtain ⟨hne, hsub, -⟩ := hgs.of_mem hg
        exact apart_ofGroup hls hsub hne (hapart g hg)
      · simp only [Lexeme.isSeparator, Lexeme.isBoundary, Bool.or_eq_true, beq_iff_eq] at hsep
        tauto
  case not_inside =>
    intro s hs l hl hin
    rcases hgs.mem_or_apart hls.ordered hl with ⟨g, hg, hlg⟩ | ⟨-, hapart⟩
    · have hb := (hgs.of_mem hg).2.2 l hlg
      simp only [Lexeme.isBoundary, Bool.or_eq_false_iff, beq_eq_false_iff_ne] at hb
      exact hb.symm
    · exfalso
      obtain ⟨g, hg, rfl⟩ := mem_map.mp hs
      obtain ⟨hne, hsub, -⟩ := hgs.of_mem hg
      exact hin.not_apart (hls.start_lt_stop l hl) (apart_ofGroup hls hsub hne (hapart g hg))

/-- **Splitting loses and duplicates nothing**: the statements of a script are not empty, stand one
behind the other, are the text of their stretches, and start and end with lexemes of the script;
every lexeme lies in exactly one of them, or is a directive, a delimiter or a semicolon and lies
beside all of them; and no directive or delimiter lies in a statement.

**Proof sketch.** The splitter cuts the lexemes of the script into groups and separators
(`grouping_scanScript`), and statements are the texts of the groups. -/
theorem splitStatements_splitsExactly (source : Text) :
    SplitsExactly source (scanScript source) (splitStatements source) := by
  rw [splitStatements_eq_groups]
  exact (grouping_scanScript source).splitsExactly (Scan.lossless_scanFrom true {} source)

end SqlOutline
