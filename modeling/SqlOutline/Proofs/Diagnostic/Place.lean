import SqlOutline.Proofs.Diagnostic.Shift

/-!
# Lines and columns

To find a place again, one walks to its line and then to its column.

## Main definitions

* `walk`, `Precedes` — the text behind so many lines and characters, and the order of places.

## Main results

* `locate_byteLength` — line and column of a place count line feeds and characters.
* `locate_places` — line and column identify places.
-/

namespace SqlOutline

open List Text

/-- The number of characters behind the last line feed of a text. -/
def columnBehind (t : Text) : Nat := (t.reverse.takeWhile (· != '\n')).length

/-- What is left of a text behind so many line feeds and then so many characters. -/
def walk : Nat → Nat → Text → Text
  | 0, characters, t => t.drop characters
  | lineFeeds + 1, characters, t => walk lineFeeds characters ((t.dropWhile (· != '\n')).drop 1)

lemma columnBehind_append (x : Text) {y : Text} (hy : '\n' ∉ y) :
    columnBehind (x ++ y) = columnBehind x + y.length := by
  have hall : ∀ c ∈ y.reverse, (c != '\n') := by
    intro c hc
    have hne : c ≠ '\n' := fun h => hy (h ▸ mem_reverse.mp hc)
    simpa using hne
  rw [columnBehind, reverse_append, takeWhile_append_of_pos hall, length_append,
    length_reverse, Nat.add_comm, columnBehind]

lemma walk_append_lineFeed (s t : Text) (characters : Nat) :
    walk (s.count '\n' + 1) characters (s ++ '\n' :: t) = walk 0 characters t := by
  induction s with
  | nil => rfl
  | cons c s ih =>
    by_cases hc : c = '\n'
    · rw [hc, count_cons_self]
      exact ih
    · rw [count_cons_of_ne hc, ← ih, cons_append, walk, walk,
        dropWhile_cons_of_pos (by simpa using hc)]

lemma exists_last_lineFeed (t : Text) : '\n' ∉ t ∨ ∃ x y, t = x ++ '\n' :: y ∧ '\n' ∉ y := by
  refine or_iff_not_imp_left.mpr fun h => ?_
  obtain ⟨y, x, heq, hy⟩ := eq_append_cons_of_mem (mem_reverse.mpr (not_not.mp h))
  exact ⟨x.reverse, y.reverse, by simpa using congrArg reverse heq, by simpa using hy⟩

/-- **A walk to the place behind a text** leads there. -/
lemma walk_append (before rest : Text) :
    walk (before.count '\n') (columnBehind before) (before ++ rest) = rest := by
  rcases exists_last_lineFeed before with h | ⟨x, y, rfl, hy⟩
  · have hcolumn : columnBehind before = before.length :=
      (columnBehind_append [] h).trans (Nat.zero_add _)
    rw [count_eq_zero.mpr h, hcolumn, walk, drop_left]
  · have hcount : (x ++ '\n' :: y).count '\n' = x.count '\n' + 1 := by
      rw [count_append, count_cons_self, count_eq_zero.mpr hy]
    have hcolumn : columnBehind (x ++ '\n' :: y) = y.length := by
      rw [append_cons, columnBehind_append _ hy, columnBehind, reverse_concat]
      exact Nat.zero_add _
    rw [hcount, hcolumn, append_assoc, cons_append, walk_append_lineFeed, walk, drop_left]

namespace Span

lemma snd_advance (line : Nat) (t : Text) : (advance line 1 t).2 = 1 + columnBehind t := by
  induction t using reverseRecOn with
  | nil => rfl
  | append_singleton t c ih =>
    rw [advance_append, advance, columnBehind, reverse_concat]
    by_cases hc : c = '\n'
    · rw [if_pos hc, hc]
      rfl
    · rw [if_neg hc, takeWhile_cons_of_pos (by simpa using hc)]
      change (advance line 1 t).2 + 1 = 1 + (columnBehind t + 1)
      rw [ih]
      omega

/-- **The place of a stretch** behind a text: the line counts its line feeds, the column the
characters behind the last of them. -/
lemma locate_byteLength (before rest : Text) (length : Nat) :
    locate (before ++ rest) (byteLength before) length =
      ⟨byteLength before, length, 1 + before.count '\n', 1 + columnBehind before⟩ := by
  have hle : byteLength before ≤ byteLength (before ++ rest) := by
    rw [byteLength_append]
    omega
  unfold locate
  dsimp only
  rw [Nat.min_eq_left hle, if_pos (isBoundary_iff.mpr ⟨before, rest, rfl, rfl⟩),
    takeBytes_byteLength, fst_advance, snd_advance]

/-- A span starts on an earlier line than another, or on the same line in an earlier column. -/
def Precedes (s s' : Span) : Prop := s.line < s'.line ∨ s.line = s'.line ∧ s.column < s'.column

lemma precedes_of_append {x y : Text} (hy : y ≠ []) (rest : Text) (n n' : Nat) :
    (locate (x ++ (y ++ rest)) (byteLength x) n).Precedes
      (locate (x ++ (y ++ rest)) (byteLength (x ++ y)) n') := by
  rw [locate_byteLength, ← append_assoc, locate_byteLength, Precedes, count_append]
  dsimp only
  by_cases hmem : '\n' ∈ y
  · have hpos := count_pos_iff.mpr hmem
    omega
  · have hlen := length_pos_iff.mpr hy
    rw [count_eq_zero.mpr hmem, columnBehind_append x hmem]
    omega

lemma precedes_of_lt {source : Text} {i j : Nat} (hi : isBoundary i source)
    (hj : isBoundary j source) (hij : i < j) (n n' : Nat) :
    (locate source i n).Precedes (locate source j n') := by
  obtain ⟨x, y, z, rfl, rfl, rfl⟩ := exists_split_of_isBoundary hi hj (Nat.le_of_lt hij)
  have hy : y ≠ [] := by
    rintro rfl
    simp at hij
  rw [← byteLength_append]
  exact precedes_of_append hy z n n'

/-- **Line and column identify places.** Over the places between the characters of a source they
grow with the offset, so that no two places share them, and a walk to the line and then to the
column leads back to the place. An offset behind the source has the line and column of its end. -/
theorem locate_places (source : Text) :
    (∀ i j n n', isBoundary i source = true → isBoundary j source = true →
      (i < j → (locate source i n).Precedes (locate source j n')) ∧
      ((locate source i n).line = (locate source j n').line →
        (locate source i n).column = (locate source j n').column → i = j)) ∧
    (∀ i n, isBoundary i source = true → ∃ before,
      source = before ++ walk ((locate source i n).line - 1) ((locate source i n).column - 1) source
        ∧ byteLength before = i) ∧
    ∀ i n, byteLength source ≤ i → locate source i n = locate source (byteLength source) n := by
  refine ⟨fun i j n n' hi hj => ⟨fun hij => precedes_of_lt hi hj hij n n', ?_⟩, ?_, ?_⟩
  · intro hline hcolumn
    rcases Nat.lt_trichotomy i j with hij | hij | hij
    · have hlt := precedes_of_lt hi hj hij n n'
      rw [Precedes] at hlt
      omega
    · exact hij
    · have hlt := precedes_of_lt hj hi hij n' n
      rw [Precedes] at hlt
      omega
  · intro i n hi
    obtain ⟨before, rest, rfl, rfl⟩ := isBoundary_iff.mp hi
    refine ⟨before, ?_, rfl⟩
    rw [locate_byteLength]
    dsimp only
    rw [Nat.add_sub_cancel_left, Nat.add_sub_cancel_left, walk_append]
  · intro i n hi
    rw [locate, locate, Nat.min_eq_right hi, Nat.min_self]

/-- Two places around a character of two bytes and a line feed. -/
theorem locate_places_wide :
    (isBoundary 2 "é\nb".toList = true ∧ isBoundary 3 "é\nb".toList = true) ∧
      (locate "é\nb".toList 2 0).Precedes (locate "é\nb".toList 3 0) ∧
      (∃ before, "é\nb".toList = before ++ walk 1 0 "é\nb".toList ∧ byteLength before = 3) ∧
      locate "é\nb".toList 9 0 = locate "é\nb".toList 4 0 :=
  ⟨by decide, ((locate_places _).1 2 3 0 0 (by decide) (by decide)).1 (by decide),
    (locate_places _).2.1 3 0 (by decide), (locate_places _).2.2 9 0 (by decide)⟩

end Span

end SqlOutline
