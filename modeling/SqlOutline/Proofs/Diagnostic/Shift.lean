import SqlOutline.Diagnostic
import SqlOutline.Proofs.Text.Slice

/-!
# Places behind whole lines

Behind whole lines of a larger text, places move by the bytes and the number of these lines.

## Main definitions

* `Diagnostic.shift` — the diagnostic about a place that stands further on.

## Main results

* `locate_append` — places behind whole lines have the same column.
-/

namespace SqlOutline

open List Text

namespace Span

/-- The span that stands so many bytes and lines further on. -/
def shift (bytes lines : Nat) (s : Span) : Span :=
  { s with offset := s.offset + bytes, line := s.line + lines }

lemma advance_append (line column : Nat) (s t : Text) : advance line column (s ++ t) =
      advance (advance line column s).1 (advance line column s).2 t := by
  induction s generalizing line column with
  | nil => rfl
  | cons c s ih =>
    rw [cons_append, advance, advance]
    split_ifs
    · exact ih (line + 1) 1
    · exact ih line (column + 1)

lemma fst_advance (line column : Nat) (t : Text) :
    (advance line column t).1 = line + t.count '\n' := by
  induction t generalizing line column with
  | nil => rfl
  | cons c t ih =>
    rw [advance]
    by_cases hc : c = '\n'
    · rw [if_pos hc, ih, hc, count_cons_self]
      omega
    · rw [if_neg hc, ih, count_cons_of_ne hc]

lemma advance_add (line lines column : Nat) (t : Text) : advance (line + lines) column t =
      ((advance line column t).1 + lines, (advance line column t).2) := by
  induction t generalizing line column with
  | nil => rfl
  | cons c t ih =>
    rw [advance, advance]
    split_ifs
    · rw [Nat.add_right_comm]
      exact ih (line + 1) 1
    · exact ih line (column + 1)

lemma advance_lines (s t : Text) : advance 1 1 (s ++ '\n' :: t) =
      ((advance 1 1 t).1 + (s.count '\n' + 1), (advance 1 1 t).2) := by
  rw [advance_append, advance, if_pos rfl, fst_advance, Nat.add_assoc, advance_add]

/-- **Places behind whole lines** have the same column, and offset and line are shifted. -/
lemma locate_append (s t : Text) (offset length : Nat) :
    locate (s ++ '\n' :: t) (byteLength s + 1 + offset) length =
      (locate t offset length).shift (byteLength s + 1) (s.count '\n' + 1) := by
  set x := s ++ ['\n'] with hx
  have hsource : s ++ '\n' :: t = x ++ t := append_cons s '\n' t
  have hlen : byteLength x = byteLength s + 1 := byteLength_append _ _
  have hmin : min (byteLength s + 1 + offset) (byteLength (x ++ t)) =
      byteLength x + min offset (byteLength t) := by
    rw [byteLength_append, hlen]
    omega
  have hadvance : ∀ u, advance 1 1 (x ++ u) =
      ((advance 1 1 u).1 + (s.count '\n' + 1), (advance 1 1 u).2) := by
    intro u
    rw [hx, append_assoc]
    exact advance_lines s u
  unfold locate
  dsimp only
  rw [hsource, hmin, isBoundary_byteLength_add, takeBytes_byteLength_add, ← apply_ite (x ++ ·),
    hadvance, Nat.add_comm, hlen]
  rfl

lemma locate_zero (t : Text) (length : Nat) : locate t 0 length = ⟨0, length, 1, 1⟩ := by
  unfold locate
  dsimp only
  rw [Nat.zero_min, if_pos (isBoundary_zero t), takeBytes_zero]
  rfl

end Span

/-- The diagnostic about a place that stands so many bytes and lines further on. -/
def Diagnostic.shift (bytes lines : Nat) (d : Diagnostic) : Diagnostic :=
  { d with span := d.span.map (Span.shift bytes lines) }

end SqlOutline
