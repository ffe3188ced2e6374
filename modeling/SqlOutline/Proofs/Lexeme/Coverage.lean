import SqlOutline.Proofs.Lexeme.Piece

/-!
# Lexemes cover the text

A text is its lexemes, in order, with gaps between them that hold only white space and whole
comments.

## Main definitions

* `Layout` — a text as an alternation of gaps and lexemes.
* `Lossless` — lexemes that cover a text.

## Main results

* `layout_scanFrom` — scans are layouts.
* `tokenize_scanScript_lossless` — the scanner loses nothing and cuts no character.
-/

namespace SqlOutline

open List

namespace Scan

open Text

/-! ## Gaps -/

/-- The text of a gap before a given text: white space characters and whole comments. -/
inductive Filler : Text → Text → Prop
  | nil {after : Text} : Filler [] after
  | blank {c : Char} {g after : Text} (hc : isBlank c) (h : Filler g after) :
      Filler (c :: g) after
  | comment {k g after : Text} (hk : Comment k (g ++ after)) (h : Filler g after) :
      Filler (k ++ g) after

/-- The byte ranges that lexemes leave free, from `start` to the end of a text of `size` bytes. -/
def gapsFrom (start size : Nat) : List Lexeme → List (Nat × Nat)
  | [] => [(start, size)]
  | l :: ls => (start, l.start) :: gapsFrom l.stop size ls

/-- Lexemes that cover a text. -/
structure Lossless (t : Text) (ls : List Lexeme) : Prop where
  /-- No lexeme is empty. -/
  ne_nil : ∀ l ∈ ls, l.text ≠ []
  /-- The range of a lexeme has bytes. -/
  start_lt_stop : ∀ l ∈ ls, l.start < l.stop
  /-- Each lexeme ends before those behind it start. -/
  ordered : ls.Pairwise fun l m => l.stop ≤ m.start
  /-- No lexeme reaches over the end of the text. -/
  stop_le : ∀ l ∈ ls, l.stop ≤ byteLength t
  /-- Lexemes start and end between characters. -/
  isBoundary : ∀ l ∈ ls, isBoundary l.start t ∧ isBoundary l.stop t
  /-- A lexeme is the text of its range. -/
  slice_eq : ∀ l ∈ ls, slice l.start l.stop t = l.text
  /-- What no lexeme covers is white space and comments. -/
  filler : ∀ g ∈ gapsFrom 0 (byteLength t) ls, Filler (slice g.1 g.2 t) (dropBytes g.2 t)

/-! ## Layouts -/

/-- A text that stands at a byte offset, as an alternation of gaps and lexemes. -/
inductive Layout : Nat → Text → List Lexeme → Prop
  | done {offset : Nat} {g : Text} (hg : Filler g []) : Layout offset g []
  | lexeme {offset : Nat} {g r : Text} {l : Lexeme} {ls : List Lexeme}
      (hg : Filler g (l.text ++ r)) (hne : l.text ≠ []) (hs : l.start = offset + byteLength g)
      (h : Layout l.stop r ls) : Layout offset (g ++ (l.text ++ r)) (l :: ls)

variable {offset : Nat} {t : Text} {ls : List Lexeme}

lemma Layout.cons_blank {c : Char} (hc : isBlank c) (h : Layout (offset + c.utf8Size) t ls) :
    Layout offset (c :: t) ls := by
  cases h with
  | done hg => exact .done (.blank hc hg)
  | lexeme hg hne hs h =>
    refine Layout.lexeme (.blank hc hg) hne ?_ h
    rw [hs, byteLength_cons, Nat.add_assoc]

lemma Layout.append_blanks {w : Text}
    (hw : ∀ c ∈ w, isBlank c) (h : Layout (offset + byteLength w) t ls) :
    Layout offset (w ++ t) ls := by
  induction w generalizing offset with
  | nil => exact h
  | cons c w ih =>
    refine Layout.cons_blank (hw c mem_cons_self) (ih (fun d hd => ?_) ?_)
    · exact hw d (mem_cons_of_mem c hd)
    · rwa [byteLength_cons, ← Nat.add_assoc] at h

lemma Layout.append_comment {k : Text} (hk : Comment k t)
    (h : Layout (offset + byteLength k) t ls) : Layout offset (k ++ t) ls := by
  cases h with
  | done hg =>
    rw [← append_nil t] at hk
    exact .done (.comment hk hg)
  | @lexeme _ g r l ls hg hne hs h =>
    rw [← append_assoc]
    refine Layout.lexeme (.comment hk hg) hne ?_ h
    rw [hs, byteLength_append, Nat.add_assoc]

/-! ## Scans -/

/-- What a piece covers behind its first character, with what is dropped behind it. -/
abbrev Piece.width (p : Piece) : Nat := p.more + p.skip

lemma Piece.more_le_width (p : Piece) : p.more ≤ p.width := Nat.le_add_right _ _

def Piece.lexemes (p : Piece) (offset : Nat) (c : Char) (t : Text) : List Lexeme :=
  p.kind.toList.map (⟨·, c :: t.take p.more, offset⟩)

section Step

variable {script : Bool} {st : State} {offset : Nat} {c : Char} {t : Text}

/-- **A scan** is its first piece and the scan behind it. -/
lemma scanFrom_cons (script : Bool) (st : State) (offset : Nat) (c : Char) (t : Text) :
    scanFrom script st offset (c :: t) = (piece script st c t).lexemes offset c t ++
      scanFrom script (piece script st c t).state
        (offset + byteLength (c :: t.take (piece script st c t).width))
        (t.drop (piece script st c t).width) := by
  rw [scanFrom, Piece.lexemes]
  cases (piece script st c t).kind <;> rfl

lemma scan_induction (script : Bool) {motive : State → Nat → Text → Prop}
    (nil : ∀ st i, motive st i []) (cons : ∀ st i c t, motive (piece script st c t).state
      (i + byteLength (c :: t.take (piece script st c t).width))
      (t.drop (piece script st c t).width) → motive st i (c :: t))
    (st : State) (i : Nat) (t : Text) : motive st i t := by
  induction hn : t.length using Nat.strong_induction_on generalizing st i t with
  | _ n ih =>
    cases t with
    | nil => exact nil st i
    | cons c t =>
      refine cons st i c t (ih _ ?_ _ _ _ rfl)
      rw [← hn, length_drop, length_cons]
      omega

lemma scanFrom_gap (h : (piece script st c t).kind = none) : scanFrom script st offset (c :: t) =
      scanFrom script (piece script st c t).state
        (offset + byteLength (c :: t.take (piece script st c t).more))
        (t.drop (piece script st c t).more) := by
  rw [scanFrom_cons, Piece.lexemes, h, Piece.width, (piece_gap h).1]
  rfl

lemma scanFrom_lexeme {kind : LexemeKind} (h : (piece script st c t).kind = some kind) :
    scanFrom script st offset (c :: t) =
      ⟨kind, c :: t.take (piece script st c t).more, offset⟩ ::
        scanFrom script (piece script st c t).state
          (offset + byteLength (c :: t.take (piece script st c t).more) +
            byteLength ((t.drop (piece script st c t).more).take (piece script st c t).skip))
          (t.drop ((piece script st c t).more + (piece script st c t).skip)) := by
  rw [scanFrom_cons, Piece.lexemes, h, Piece.width, take_add, ← cons_append,
    byteLength_append, Nat.add_assoc]
  rfl

end Step

/-- **Scans are layouts.**

**Proof sketch.** Induction along the pieces. A gap at the head is a white space character or a
whole comment, and goes in front of the layout of the rest. A lexeme at the head starts a layout
with an empty gap; what is dropped behind it is white space and goes in front of the rest. -/
lemma layout_scanFrom (script : Bool) (st : State) (offset : Nat) (t : Text) :
    Layout offset t (scanFrom script st offset t) := by
  induction st, offset, t using scan_induction script with
  | nil =>
    rw [scanFrom]
    exact .done .nil
  | cons st offset c t ih =>
    set p := piece script st c t with hp
    rw [scanFrom_cons, Piece.lexemes, ← hp]
    cases hk : p.kind with
    | none =>
      obtain ⟨hskip, ⟨hc, hm⟩ | hcomment⟩ := piece_gap hk
      · rw [Piece.width, hskip, hm, Nat.add_zero, drop_zero] at ih ⊢
        exact .cons_blank hc ih
      · rw [Piece.width, hskip, Nat.add_zero] at ih ⊢
        have := Layout.append_comment hcomment ih
        rwa [← hp, cons_append, take_append_drop] at this
    | some kind =>
      have hsplit : c :: t =
          (c :: t.take p.more) ++ ((t.drop p.more).take p.skip ++ t.drop p.width) := by
        rw [← drop_drop, take_append_drop, cons_append, take_append_drop]
      conv => arg 2; rw [hsplit]
      refine Layout.lexeme (g := []) (l := ⟨kind, c :: t.take p.more, offset⟩) .nil
        (cons_ne_nil _ _) rfl (Layout.append_blanks piece_skip ?_)
      rw [take_add, ← cons_append, byteLength_append, ← Nat.add_assoc] at ih ⊢
      exact ih

/-! ## From layouts to offsets -/

section Offsets

variable {x t : Text} {offset : Nat} {l : Lexeme} {ls : List Lexeme}

/-- **A lexeme of a layout** cuts the text in three: what stands before it, its text, and the
rest. -/
lemma Layout.exists_split (h : Layout offset t ls) (hl : l ∈ ls) :
    ∃ y z, t = y ++ (l.text ++ z) ∧ l.start = offset + byteLength y ∧ l.text ≠ [] := by
  induction h with
  | done => cases hl
  | @lexeme offset g r m ms hg hne hs h ih =>
    rcases mem_cons.mp hl with rfl | hl
    · exact ⟨g, r, rfl, hs, hne⟩
    · obtain ⟨y, z, rfl, hy, hl⟩ := ih hl
      refine ⟨g ++ (m.text ++ y), z, by simp only [append_assoc], ?_, hl⟩
      rw [hy, Lexeme.stop, hs]
      simp only [byteLength_append]
      omega

lemma Layout.le_start (h : Layout offset t ls) (hl : l ∈ ls) : offset ≤ l.start := by
  obtain ⟨y, z, -, hy, -⟩ := h.exists_split hl
  omega

lemma Layout.ordered (h : Layout offset t ls) : ls.Pairwise fun l m => l.stop ≤ m.start := by
  induction h with
  | done => exact .nil
  | lexeme hg hne hs h ih => exact .cons (fun m hm => h.le_start hm) ih

/-- **The gaps of a layout** that stands behind `x` are the parts of the text between lexemes. -/
lemma Layout.filler (h : Layout offset t ls) (hx : offset = byteLength x) :
    ∀ g ∈ gapsFrom offset (byteLength (x ++ t)) ls,
      Filler (slice g.1 g.2 (x ++ t)) (dropBytes g.2 (x ++ t)) := by
  induction h generalizing x with
  | @done offset f hf =>
    intro g hg
    obtain rfl : g = (offset, byteLength (x ++ f)) := by simpa [gapsFrom] using hg
    have hslice := slice_append x f []
    have hdrop := dropBytes_byteLength (x ++ f) []
    rw [append_nil] at hslice hdrop
    rwa [hx, byteLength_append, hslice, ← byteLength_append, hdrop]
  | @lexeme offset f r m ms hf hne hs h ih =>
    intro g hg
    have hstart : m.start = byteLength (x ++ f) := by rw [hs, hx, byteLength_append]
    have hstop : m.stop = byteLength (x ++ (f ++ m.text)) := by
      rw [Lexeme.stop, hstart]
      simp only [byteLength_append]
      omega
    rcases mem_cons.mp hg with rfl | hg
    · rw [hx, hstart]
      dsimp only
      rw [← append_assoc x f, dropBytes_byteLength, byteLength_append, append_assoc, slice_append]
      exact hf
    · have htext : x ++ (f ++ (m.text ++ r)) = x ++ (f ++ m.text) ++ r := by
        simp only [append_assoc]
      rw [htext] at hg ⊢
      exact ih hstop g hg

end Offsets

lemma Layout.lossless (h : Layout 0 t ls) : Lossless t ls where
  ne_nil l hl := by
    obtain ⟨-, -, -, -, hne⟩ := h.exists_split hl
    exact hne
  start_lt_stop l hl := by
    obtain ⟨-, -, -, -, hne⟩ := h.exists_split hl
    have := byteLength_pos hne
    rw [Lexeme.stop]
    omega
  ordered := h.ordered
  stop_le l hl := by
    obtain ⟨y, z, rfl, hy, -⟩ := h.exists_split hl
    simp only [Lexeme.stop, hy, byteLength_append]
    omega
  isBoundary l hl := by
    obtain ⟨y, z, rfl, hy, -⟩ := h.exists_split hl
    rw [Nat.zero_add] at hy
    refine ⟨by rw [hy]; exact isBoundary_byteLength y _, ?_⟩
    rw [Lexeme.stop, hy, isBoundary_byteLength_add]
    exact isBoundary_byteLength l.text z
  slice_eq l hl := by
    obtain ⟨y, z, rfl, hy, -⟩ := h.exists_split hl
    rw [Nat.zero_add] at hy
    rw [Lexeme.stop, hy, slice_append]
  filler := h.filler (x := []) rfl

lemma lossless_scanFrom (script : Bool) (st : State) (t : Text) :
    Lossless t (scanFrom script st 0 t) :=
  (layout_scanFrom script st 0 t).lossless

/-- **The scanner loses nothing and cuts no character**: the lexemes of a text are not empty, stand
one behind the other inside the text, start and end between characters and are what stands in their
ranges; and what stands between them, before the first or behind the last is white space and whole
comments. This holds for the lexemes of a statement as for those of a script.

**Proof sketch.** A scan is a layout of the text (`layout_scanFrom`), and the offsets of a layout
are the sizes of its parts. -/
theorem tokenize_scanScript_lossless (t : Text) :
    Lossless t (tokenize t) ∧ Lossless t (scanScript t) :=
  ⟨lossless_scanFrom false {} t, lossless_scanFrom true {} t⟩

end Scan

end SqlOutline
