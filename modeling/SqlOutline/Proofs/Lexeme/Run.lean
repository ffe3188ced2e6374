import SqlOutline.Proofs.Lexeme.Coverage

/-!
# Runs of the scanner

A run is read with the whole rest of the text present, so that it can be continued but never ends
inside a piece.

## Main definitions

* `Run` — a run of the scanner from a place of a text to a later one.

## Main results

* `scanFrom_eq` — a scan is a run and the scan of the rest.
* `append_newline` — lines behind the text do not influence a run.
* `exists_run_of_mem` — every lexeme is reached by a run.
-/

namespace SqlOutline

open List

/-- A lexeme of a text with `n` bytes put in front. -/
def Lexeme.shift (n : Nat) (l : Lexeme) : Lexeme := { l with start := n + l.start }

namespace Lexeme

variable (n : Nat) (l : Lexeme)

@[simp]
lemma start_shift : (l.shift n).start = n + l.start := rfl

@[simp]
lemma stop_shift : (l.shift n).stop = n + l.stop := by
  rw [stop, stop, start_shift, Nat.add_assoc]
  rfl

end Lexeme

namespace Scan

open Text

variable {c : Char} {l : Lexeme} {script : Bool} {st : State} {r v : Text}

/-- Runs of the scanner: `Run script st i t ls st' j u` says that from the text `t` at offset `i`,
with `st` known, the scanner reads the lexemes `ls` and comes to the rest `u` at offset `j`, with
`st'` known. -/
inductive Run (script : Bool) :
    State → Nat → Text → List Lexeme → State → Nat → Text → Prop
  | refl (st : State) (i : Nat) (t : Text) : Run script st i t [] st i t
  | gap {st st' : State} {i j : Nat} {c : Char} {t u : Text} {ls : List Lexeme}
      (hk : (piece script st c t).kind = none)
      (h : Run script (piece script st c t).state
        (i + byteLength (c :: t.take (piece script st c t).more))
        (t.drop (piece script st c t).more) ls st' j u) :
      Run script st i (c :: t) ls st' j u
  | lexeme {st st' : State} {i j : Nat} {c : Char} {t u : Text} {ls : List Lexeme}
      {kind : LexemeKind} (hk : (piece script st c t).kind = some kind)
      (h : Run script (piece script st c t).state
        (i + byteLength (c :: t.take (piece script st c t).more) +
          byteLength ((t.drop (piece script st c t).more).take (piece script st c t).skip))
        (t.drop ((piece script st c t).more + (piece script st c t).skip)) ls st' j u) :
      Run script st i (c :: t) (⟨kind, c :: t.take (piece script st c t).more, i⟩ :: ls) st' j u

namespace Run

variable {script : Bool} {st st' st'' : State} {i j k : Nat} {t u v : Text} {ls ms : List Lexeme}

lemma step (h : Run script (piece script st c t).state
      (i + byteLength (c :: t.take (piece script st c t).width))
      (t.drop (piece script st c t).width) ls st' j u) :
    Run script st i (c :: t) ((piece script st c t).lexemes i c t ++ ls) st' j u := by
  cases hk : (piece script st c t).kind with
  | none =>
    rw [Piece.width, (piece_gap hk).1] at h
    rw [Piece.lexemes, hk]
    exact .gap hk h
  | some kind =>
    rw [take_add, ← cons_append, byteLength_append, ← Nat.add_assoc] at h
    rw [Piece.lexemes, hk]
    exact .lexeme hk h

lemma step_induction {motive : ∀ st i t ls, Run script st i t ls st' j u → Prop}
    (refl : motive st' j u [] (.refl st' j u))
    (step : ∀ st i c t ls (h : Run script (piece script st c t).state
        (i + byteLength (c :: t.take (piece script st c t).width))
        (t.drop (piece script st c t).width) ls st' j u), motive _ _ _ _ h →
      motive st i (c :: t) ((piece script st c t).lexemes i c t ++ ls) h.step)
    (h : Run script st i t ls st' j u) : motive st i t ls h := by
  induction h with
  | refl => exact refl
  | @gap st st' i j c t u ls hk h ih =>
    have hstep := step st i c t ls
    simp only [Piece.lexemes, Piece.width, hk, (piece_gap hk).1] at hstep
    exact hstep h (ih refl step)
  | @lexeme st st' i j c t u ls kind hk h ih =>
    have hstep := step st i c t ls
    simp only [Piece.lexemes, hk, take_add, ← cons_append, byteLength_append,
      ← Nat.add_assoc] at hstep
    exact hstep h (ih refl step)

section

variable (h : Run script st i t ls st' j u)

include h

lemma trans (h' : Run script st' j u ms st'' k v) : Run script st i t (ls ++ ms) st'' k v := by
  induction h with
  | refl => exact h'
  | gap hk _ ih => exact .gap hk (ih h')
  | lexeme hk _ ih => exact .lexeme hk (ih h')

/-- **A scan is a run and the scan of the rest.** -/
lemma scanFrom_eq : scanFrom script st i t = ls ++ scanFrom script st' j u := by
  induction h with
  | refl => rfl
  | gap hk _ ih => rw [scanFrom_gap hk, ih]
  | lexeme hk _ ih => rw [scanFrom_lexeme hk, ih, cons_append]

lemma exists_append : ∃ x, t = x ++ u ∧ j = i + byteLength x := by
  induction h using step_induction with
  | refl => exact ⟨[], rfl, rfl⟩
  | step st i c t ls _ ih =>
    obtain ⟨x, hx, rfl⟩ := ih
    refine ⟨c :: t.take (piece script st c t).width ++ x, ?_, ?_⟩
    · rw [append_assoc, ← hx, cons_append, take_append_drop]
    · rw [byteLength_append, Nat.add_assoc]

lemma length_le : u.length ≤ t.length := by
  obtain ⟨x, rfl, -⟩ := h.exists_append
  simp

lemma eq_of_length_le (hlen : t.length ≤ u.length) : ls = [] ∧ st' = st ∧ j = i := by
  induction h using step_induction with
  | refl => exact ⟨rfl, rfl, rfl⟩
  | step st i c t ls h _ =>
    have := h.length_le
    rw [length_drop, length_cons] at *
    omega

lemma stop_le (hl : l ∈ ls) : l.stop ≤ j := by
  induction h with
  | refl => cases hl
  | gap _ _ ih => exact ih hl
  | lexeme _ h ih =>
    rcases mem_cons.mp hl with rfl | hl
    · obtain ⟨x, -, rfl⟩ := h.exists_append
      rw [Nat.add_assoc]
      exact Nat.le_add_right _ _
    · exact ih hl

lemma delimiter_eq (hls : ∀ l ∈ ls, l.kind ≠ .directive) : st'.delimiter = st.delimiter := by
  induction h with
  | refl => rfl
  | gap hk _ ih => rw [ih hls, piece_delimiter (by rw [hk]; exact Option.some_ne_none _ |>.symm)]
  | lexeme hk _ ih =>
    rw [ih fun l hl => hls l (mem_cons_of_mem _ hl), piece_delimiter]
    intro hdir
    exact hls _ mem_cons_self (Option.some.inj (hk.symm.trans hdir))

end

lemma step_append {p : Piece}
    (h : Run script p.state (i + byteLength (c :: t.take p.width)) (t.drop p.width ++ v) ls st' j u)
    (hp : piece script st c (t ++ v) = p) (hlen : p.width ≤ t.length) :
    Run script st i (c :: (t ++ v)) (p.lexemes i c t ++ ls) st' j u := by
  subst hp
  rw [← take_append_of_le_length hlen, ← drop_append_of_le_length hlen] at h
  have hrun := h.step
  rwa [Piece.lexemes, take_append_of_le_length (Nat.le_trans (Piece.more_le_width _) hlen)]
    at hrun

/-- **Lines behind the text** do not influence a run that does not reach its end. -/
lemma append_newline (h : Run script st i t ls st' j u) (hst : st.WellFormed) (hu : u ≠ [])
    (z : Text) : Run script st i (t ++ '\n' :: z) ls st' j (u ++ '\n' :: z) := by
  induction h using step_induction with
  | refl => exact .refl _ _ _
  | step st i c t ls h ih =>
    have hlen := length_pos_iff.mpr hu
    have hle := h.length_le
    have hmore := (piece script st c t).more_le_width
    rw [length_drop] at hle
    exact (ih (piece_wellFormed hst)).step_append (piece_append_newline hst (by omega) z) (by omega)

end Run

section Reach

variable {script : Bool} {st : State} {i : Nat} {t w v : Text} {l : Lexeme} {ls ms : List Lexeme}

/-- **A run up to a lexeme** reads the lexemes before it, and stops where the lexeme is the next
piece. -/
lemma exists_run_to (h : scanFrom script st i t = ls ++ l :: ms) :
    ∃ st' c u, Run script st i t ls st' l.start (c :: u) ∧
      (piece script st' c u).kind = some l.kind ∧
      l.text = c :: u.take (piece script st' c u).more := by
  induction st, i, t using scan_induction script generalizing ls with
  | nil => simp [scanFrom] at h
  | cons st i c t ih =>
    rw [scanFrom_cons] at h
    rcases append_eq_append_iff.mp h with ⟨ks, rfl, hks⟩ | ⟨_ | ⟨k, ks⟩, hls, hks⟩
    · obtain ⟨st', d, u, hrun, hd⟩ := ih hks
      exact ⟨st', d, u, hrun.step, hd⟩
    · obtain ⟨st', d, u, hrun, hd⟩ := @ih [] hks.symm
      rw [append_nil] at hls
      exact ⟨st', d, u, by simpa [hls] using hrun.step, hd⟩
    · obtain ⟨rfl, -⟩ := cons.inj hks
      cases hk : (piece script st c t).kind with
      | none => simp [Piece.lexemes, hk] at hls
      | some kind =>
        rw [Piece.lexemes, hk] at hls
        obtain ⟨rfl, hl⟩ | ⟨-, hl⟩ := singleton_eq_append_iff.mp hls
        · obtain ⟨rfl, -⟩ := cons.inj hl
          exact ⟨st, c, t, .refl _ _ _, hk, rfl⟩
        · cases hl

/-- **Every lexeme is reached by a run**, which stops where the lexeme is the next piece. -/
lemma exists_run_of_mem (hl : l ∈ scanFrom script st i t) :
    ∃ ls st' c u, Run script st i t ls st' l.start (c :: u) ∧
      (piece script st' c u).kind = some l.kind ∧
      l.text = c :: u.take (piece script st' c u).more := by
  obtain ⟨ls, ms, h⟩ := append_of_mem hl
  exact ⟨ls, exists_run_to h⟩

/-- **A run to a lexeme that ends at a given place**, before the end of the text. -/
lemma exists_run_to_last (h : scanFrom script st i (w ++ v) = ls ++ l :: ms) (hv : v ≠ [])
    (hstop : l.stop = i + byteLength w) :
    ∃ st' x c r, w = x ++ c :: r ∧ l.text = c :: r ∧ l.start = i + byteLength x ∧
      Run script st i (x ++ c :: (r ++ v)) ls st' l.start (c :: (r ++ v)) ∧
      (piece script st' c (r ++ v)).kind = some l.kind ∧
      (piece script st' c (r ++ v)).more = r.length := by
  obtain ⟨st', c, u, hrun, hk, htext⟩ := exists_run_to h
  obtain ⟨x, hx, hstart⟩ := hrun.exists_append
  obtain ⟨hw, hdrop⟩ : x ++ l.text = w ∧ u.drop (piece script st' c u).more = v := by
    apply append_inj_of_byteLength
    · rw [hx, htext, append_assoc, cons_append, take_append_drop]
    · rw [Lexeme.stop, hstart] at hstop
      rw [byteLength_append]
      omega
  obtain ⟨r, hr⟩ : ∃ r, r = u.take (piece script st' c u).more := ⟨_, rfl⟩
  obtain rfl : u = r ++ v := by rw [hr, ← hdrop, take_append_drop]
  have hpos := length_pos_iff.mpr hv
  have hlen := congrArg length hdrop
  rw [length_drop, length_append] at hlen
  rw [← hr] at htext
  exact ⟨st', x, c, r, htext ▸ hw.symm, htext, hstart, hx ▸ hrun, hk, by omega⟩

end Reach

lemma run_lexeme (htext : l.text = c :: r) (hk : (piece script st c (r ++ v)).kind = some l.kind)
    (hmore : (piece script st c (r ++ v)).more = r.length)
    (hskip : (piece script st c (r ++ v)).skip = 0) :
    Run script st l.start (c :: (r ++ v)) [l] (piece script st c (r ++ v)).state l.stop v := by
  have hrun : Run script st l.start (c :: (r ++ v)) _ _ _ _ := .lexeme hk (.refl _ _ _)
  simp only [hmore, hskip, take_left, drop_left, Nat.add_zero, take_zero,
    byteLength_nil, ← htext] at hrun
  exact hrun

lemma run_of_piece {kind : LexemeKind}
    (hp : piece script st c (r ++ v) = lexeme kind r.length st) (i : Nat) :
    Run script st i (c :: (r ++ v)) [⟨kind, c :: r, i⟩] { st with freshLine := false }
      (i + byteLength (c :: r)) v := by
  have hrun := run_lexeme (l := ⟨kind, c :: r, i⟩) rfl (congrArg Piece.kind hp)
    (congrArg Piece.more hp) (congrArg Piece.skip hp)
  rwa [hp] at hrun

lemma piece_skip_eq_zero {d : Char} {u : Text}
    (hmore : (piece script st c (r ++ d :: u)).more = r.length) (hd : isBlank d = false) :
    (piece script st c (r ++ d :: u)).skip = 0 := by
  by_contra hne
  obtain ⟨m, hm⟩ := Nat.exists_eq_succ_of_ne_zero hne
  have hblank := @piece_skip script st c (r ++ d :: u) d
  rw [hmore, drop_left, hm, take_succ_cons, hd] at hblank
  cases hblank mem_cons_self

/-- **A run to the end of a lexeme**: if a lexeme ends where a character stands that is not white
space, a run with that lexeme reaches that character. -/
lemma exists_run_to_stop {i : Nat} {w : Text} {d : Char}
    (hl : l ∈ scanFrom script st i (w ++ d :: v)) (hd : isBlank d = false)
    (hstop : l.stop = i + byteLength w) :
    ∃ ls st', Run script st i (w ++ d :: v) ls st' (i + byteLength w) (d :: v) ∧ l ∈ ls := by
  obtain ⟨ls, ms, h⟩ := append_of_mem hl
  obtain ⟨st', x, c, r, rfl, htext, -, hrun, hk, hmore⟩ :=
    exists_run_to_last h (cons_ne_nil d v) hstop
  have hend := run_lexeme htext hk hmore (piece_skip_eq_zero hmore hd)
  rw [← hstop, append_assoc]
  exact ⟨_, _, hrun.trans hend, mem_append_right ls (mem_singleton_self l)⟩

/-- **Offsets**: the scan of a text that stands `n` bytes further on is the same, shifted. -/
lemma scanFrom_add (script : Bool) (st : State) (n i : Nat) (t : Text) :
    scanFrom script st (n + i) t = (scanFrom script st i t).map (Lexeme.shift n) := by
  induction st, i, t using scan_induction script with
  | nil =>
    rw [scanFrom, scanFrom]
    rfl
  | cons st i c t ih =>
    rw [scanFrom_cons, scanFrom_cons, map_append, Nat.add_assoc, ih, Piece.lexemes,
      Piece.lexemes, map_map]
    rfl

end Scan

end SqlOutline
