import SqlOutline.Proofs.Pattern.Extend

/-!
# Patterns in texts that stand further on

Of what is in front of a text, only the class of the last character matters.

## Main definitions

* `Cursor.Shifts`, `Found.Shifts` — places and matches of a text that stands further on.

## Main results

* `shifts_run`, `shifts_findFrom?` — running a pattern, and the leftmost match.
-/

namespace SqlOutline

open List Text

def Capture.content (g : Nat × Capture) : Nat × Text := (g.1, g.2.text)

/-- The place `k` seen as the place `k'` of a text that stands `d` bytes further on. -/
structure Cursor.Shifts (d : Nat) (k k' : Cursor) : Prop where
  rest : k'.rest = k.rest
  before : k'.before.any isWordChar = k.before.any isWordChar
  offset : k'.offset = d + k.offset
  groups : k'.groups.map Capture.content = k.groups.map Capture.content

namespace Cursor.Shifts

variable {d : Nat} {k k' l l' : Cursor}

lemma next (h : k.Shifts d k') (c : Char) (r : Text) : (k.next c r).Shifts d (k'.next c r) where
  rest := rfl
  before := rfl
  offset := by
    simp only [Cursor.next, h.offset]
    omega
  groups := h.groups

lemma text_textTo (h : k.Shifts d k') (hl : l.Shifts d l') :
    (k'.textTo l').text = (k.textTo l).text := by
  simp only [textTo, h.offset, hl.offset, h.rest, Nat.add_sub_add_left]

lemma capture (h : k.Shifts d k') (hl : l.Shifts d l') (n : Nat) :
    Cursor.Shifts d { l with groups := (n, k.textTo l) :: l.groups }
      { l' with groups := (n, k'.textTo l') :: l'.groups } where
  rest := hl.rest
  before := hl.before
  offset := hl.offset
  groups := by
    rw [map_cons, map_cons, hl.groups, Capture.content, Capture.content, h.text_textTo hl]

lemma text_group? (h : k.Shifts d k') (n : Nat) :
    (k'.group? n).map (·.text) = (k.group? n).map (·.text) := by
  have hfind (gs : List (Nat × Capture)) :
      ((gs.find? (·.1 == n)).map (·.2)).map (·.text) =
        ((gs.map Capture.content).find? (·.1 == n)).map (·.2) := by
    rw [find?_map, Option.map_map, Option.map_map]
    rfl
  rw [group?, group?, hfind, hfind, h.groups]

end Cursor.Shifts

namespace Pattern

/-! ## Runs -/

def Follows (d : Nat) (next next' : Continuation) : Prop :=
  ∀ k k', Cursor.Shifts d k k' → Option.Rel (Cursor.Shifts d) (next k) (next' k')

section Follows

variable {d : Nat} {next next' : Continuation}

lemma Follows.or {f g f' g' : Continuation} (hf : Follows d f f') (hg : Follows d g g') :
    Follows d (fun k => (f k).or (g k)) (fun k => (f' k).or (g' k)) := by
  intro k k' hk
  have hf := hf k k' hk
  have hg := hg k k' hk
  dsimp only
  generalize f k = r at hf
  generalize f' k' = r' at hf
  cases hf with
  | some h => exact .some h
  | none => exact hg

/-- **Rounds at both places.** -/
lemma shifts_rounds {p : Pattern}
    (hstep : ∀ next next', Follows d next next' → Follows d (p.run · next) (p.run · next'))
    (hnext : Follows d next next') (greedy : Bool) (fuel : Text) :
    Follows d (rounds p.run greedy fuel · next) (rounds p.run greedy fuel · next') := by
  induction fuel with
  | nil => exact hnext
  | cons c fuel ih =>
    intro k k' hk
    have hround : Follows d
        (fun l => if k.offset < l.offset then rounds p.run greedy fuel l next else none)
        (fun l => if k'.offset < l.offset then rounds p.run greedy fuel l next' else none) := by
      intro l l' hl
      have hmove : k'.offset < l'.offset ↔ k.offset < l.offset := by
        rw [hk.offset, hl.offset, Nat.add_lt_add_iff_left]
      by_cases hlt : k.offset < l.offset
      · simp only [if_pos hlt, if_pos (hmove.mpr hlt)]
        exact ih l l' hl
      · simp only [if_neg hlt, if_neg (mt hmove.mp hlt)]
        exact .none
    simp only [rounds_cons]
    cases greedy with
    | true => exact ((hstep _ _ hround).or hnext) k k' hk
    | false => exact (hnext.or (hstep _ _ hround)) k k' hk

/-- **Running a pattern at both places.**

**Proof sketch.** Induction on the pattern, for all continuations. A boundary looks at the class of
the character before the place, all else at the rest of the text. -/
lemma shifts_run {p : Pattern} (hp : p.floats) (hnext : Follows d next next') :
    Follows d (p.run · next) (p.run · next') := by
  induction p generalizing next next' with
  | empty => exact hnext
  | one f =>
    intro k k' hk
    dsimp only [run]
    rw [hk.rest]
    cases k.rest with
    | nil => exact .none
    | cons c r =>
      dsimp only
      split_ifs
      · exact hnext _ _ (hk.next c r)
      · exact .none
  | boundary =>
    intro k k' hk
    have hsame : isWordBoundary k'.before k'.rest.head? = isWordBoundary k.before k.rest.head? := by
      rw [isWordBoundary, isWordBoundary, hk.before, hk.rest]
    dsimp only [run]
    rw [hsame]
    split_ifs
    · exact hnext k k' hk
    · exact .none
  | atStart => cases hp
  | atEnd => cases hp
  | seq p q ihp ihq =>
    obtain ⟨hp, hq⟩ := Bool.and_eq_true_iff.mp hp
    exact ihp hp (ihq hq hnext)
  | alt p q ihp ihq =>
    obtain ⟨hp, hq⟩ := Bool.and_eq_true_iff.mp hp
    simp only [run_alt]
    exact (ihp hp hnext).or (ihq hq hnext)
  | many greedy p ih =>
    intro k k' hk
    dsimp only [run]
    rw [hk.rest]
    exact shifts_rounds (fun _ _ => ih hp) hnext greedy k.rest k k' hk
  | group n p ih =>
    intro k k' hk
    have hgroup : Follows d (fun l => next { l with groups := (n, k.textTo l) :: l.groups })
        (fun l => next' { l with groups := (n, k'.textTo l) :: l.groups }) :=
      fun l l' hl => hnext _ _ (hk.capture hl n)
    exact ih hp hgroup k k' hk

end Follows

/-! ## Searches -/

/-- A match seen as a match of a text that stands `d` bytes further on. -/
structure Found.Shifts (d : Nat) (m m' : Found) : Prop where
  start : m.start.Shifts d m'.start
  stop : m.stop.Shifts d m'.stop

variable {d n : Nat} {p : Pattern} {b : Option Char}

lemma Found.Shifts.text?_eq {m m' : Found} (h : m.Shifts d m') (n : Nat) :
    m'.text? n = m.text? n := h.stop.text_group? n

lemma shifts_matchAt? (hp : p.floats) {k k' : Cursor}
    (hk : k.Shifts d k') : Option.Rel (Cursor.Shifts d) (p.matchAt? k) (p.matchAt? k') :=
  shifts_run hp (fun _ _ hl => .some hl) _ _ ⟨hk.rest, hk.before, hk.offset, rfl⟩

/-- **The leftmost matches in both texts.** -/
lemma shifts_findFrom? (hp : p.floats) {n' : Nat} {b' : Option Char}
    {r : Text} (hr : Cursor.Shifts d ⟨b, r, n, []⟩ ⟨b', r, n', []⟩) :
    Option.Rel (Found.Shifts d) (p.findFrom? b n r) (p.findFrom? b' n' r) := by
  have hmatch := shifts_matchAt? hp hr
  induction r generalizing b b' n n' with
  | nil =>
    rw [findFrom?, findFrom?]
    generalize p.matchAt? ⟨b, [], n, []⟩ = o at hmatch ⊢
    generalize p.matchAt? ⟨b', [], n', []⟩ = o' at hmatch ⊢
    cases hmatch with
    | some hl => exact .some ⟨hr, hl⟩
    | none => exact .none
  | cons c r ih =>
    rw [findFrom?, findFrom?]
    generalize p.matchAt? ⟨b, c :: r, n, []⟩ = o at hmatch ⊢
    generalize p.matchAt? ⟨b', c :: r, n', []⟩ = o' at hmatch ⊢
    cases hmatch with
    | some hl => exact .some ⟨hr, hl⟩
    | none => exact ih (hr.next c r) (shifts_matchAt? hp (hr.next c r))

/-- **The leftmost match behind a text** at whose places the pattern does not match. -/
lemma findFrom?_append {x y : Text}
    (h : ∀ z k, Cursor.Reaches ⟨b, x ++ y, n, []⟩ z k → k.offset < n + byteLength x →
      p.matchAt? k = none) :
    p.findFrom? b n (x ++ y) = p.findFrom? (x.getLast?.or b) (n + byteLength x) y := by
  induction x generalizing b n with
  | nil => rfl
  | cons c x ih =>
    have hpos := Char.utf8Size_pos c
    have hfirst := h [] ⟨b, c :: x ++ y, n, []⟩ (.refl _) (by
      rw [byteLength_cons]
      dsimp only
      omega)
    rw [cons_append] at hfirst ⊢
    rw [findFrom?, hfirst, byteLength_cons, ← Nat.add_assoc, getLast?_cons]
    dsimp only
    have hnext : Cursor.Reaches ⟨b, c :: x ++ y, n, []⟩ [c] ⟨some c, x ++ y, n + c.utf8Size, []⟩ :=
      .next (k := ⟨b, c :: x ++ y, n, []⟩) rfl
    rw [ih fun z k hk hlt => h (c :: z) k (hnext.trans hk) (by rw [byteLength_cons]; omega)]
    cases x.getLast? <;> rfl

lemma Proper.findAllFrom_append (hp : p.Proper) {x y : Text}
    (h : ∀ z k, Cursor.Reaches ⟨b, x ++ y, n, []⟩ z k → k.offset < n + byteLength x →
      p.matchAt? k = none) :
    p.findAllFrom b n (x ++ y) = p.findAllFrom (x.getLast?.or b) (n + byteLength x) y := by
  have hfind := findFrom?_append h
  cases hy : p.findFrom? (x.getLast?.or b) (n + byteLength x) y with
  | none =>
    rw [hy] at hfind
    rw [findAllFrom, hfind, findAllFrom, hy]
  | some m =>
    rw [hy] at hfind
    rw [hp.findAllFrom_of_some hfind, hp.findAllFrom_of_some hy]

end Pattern

end SqlOutline
