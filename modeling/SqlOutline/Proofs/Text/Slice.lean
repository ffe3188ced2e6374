import Mathlib.Data.List.Infix
import Mathlib.Data.List.TakeWhile
import SqlOutline.Text.Blank

/-!
# Cuts of a text

A byte offset lies between two characters of a text exactly if it is the size of a first part.

## Main results

* `isBoundary_iff` — places between characters.
* `slice_append` — slices of a text in three parts.
* `beforeSub?_eq_some`, `beforeSub?_eq_none` — what the search for a text finds.
-/

namespace SqlOutline.Text

open Option Bool List

/-! ## Sizes -/

variable {t u needle : Text}

lemma byteLength_eq_zero : byteLength t = 0 ↔ t = [] := by
  cases t with
  | nil => simp
  | cons c t =>
    have := Char.utf8Size_pos c
    simp only [byteLength_cons, reduceCtorEq, iff_false]
    omega

lemma byteLength_pos (h : t ≠ []) : 0 < byteLength t := by
  rw [Nat.pos_iff_ne_zero, ne_eq, byteLength_eq_zero]
  exact h

lemma append_inj_of_byteLength {s v : Text} (h : s ++ t = u ++ v)
    (hlen : byteLength s = byteLength u) : s = u ∧ t = v := by
  induction s generalizing u with
  | nil =>
    obtain rfl := byteLength_eq_zero.mp hlen.symm
    exact ⟨rfl, h⟩
  | cons c s ih =>
    cases u with
    | nil => exact absurd (byteLength_eq_zero.mp hlen) (cons_ne_nil c s)
    | cons d u =>
      obtain ⟨rfl, htail⟩ := cons.inj h
      rw [byteLength_cons, byteLength_cons] at hlen
      obtain ⟨rfl, rfl⟩ := ih htail (by omega)
      exact ⟨rfl, rfl⟩

/-! ## Places between characters -/

@[simp]
lemma isBoundary_zero (t : Text) : isBoundary 0 t := by
  unfold isBoundary; rfl

lemma isBoundary_cons_add (c : Char) (t : Text) (n : Nat) :
    isBoundary (c.utf8Size + n) (c :: t) = isBoundary n t := by
  have hc := Char.utf8Size_pos c
  obtain ⟨m, hm⟩ : ∃ m, c.utf8Size + n = m + 1 := ⟨c.utf8Size + n - 1, by omega⟩
  rw [hm, isBoundary]
  · rw [← hm, Nat.add_sub_cancel_left]
    simp
  · omega

@[simp]
lemma isBoundary_byteLength_add (s t : Text) (n : Nat) :
    isBoundary (byteLength s + n) (s ++ t) = isBoundary n t := by
  induction s with
  | nil => simp
  | cons c s ih => rw [byteLength_cons, Nat.add_assoc, cons_append, isBoundary_cons_add, ih]

lemma isBoundary_byteLength (s t : Text) : isBoundary (byteLength s) (s ++ t) := by
  simpa using isBoundary_byteLength_add s t 0

/-- **Places between characters** are the sizes of first parts of a text. -/
lemma isBoundary_iff {n : Nat} : isBoundary n t ↔ ∃ s u, t = s ++ u ∧ byteLength s = n := by
  constructor
  · intro h
    induction t generalizing n with
    | nil =>
      cases n with
      | zero => exact ⟨[], [], rfl, rfl⟩
      | succ n => simp [isBoundary] at h
    | cons c t ih =>
      cases n with
      | zero => exact ⟨[], c :: t, rfl, rfl⟩
      | succ n =>
        simp only [isBoundary, and_eq_true, decide_eq_true_eq] at h
        obtain ⟨s, u, rfl, hs⟩ := ih h.2
        refine ⟨c :: s, u, rfl, ?_⟩
        rw [byteLength_cons, hs]
        omega
  · rintro ⟨s, u, rfl, rfl⟩
    exact isBoundary_byteLength s u

/-! ## Parts of a text -/

@[simp]
lemma takeBytes_zero (t : Text) : takeBytes 0 t = [] := by
  cases t <;> simp [takeBytes]

@[simp]
lemma dropBytes_byteLength_add (s t : Text) (n : Nat) :
    dropBytes (byteLength s + n) (s ++ t) = dropBytes n t := by
  induction s with
  | nil => simp
  | cons c s ih =>
    have hc := Char.utf8Size_pos c
    rw [byteLength_cons, cons_append, dropBytes, if_neg (by omega), Nat.add_assoc,
      Nat.add_sub_cancel_left, ih]

@[simp]
lemma takeBytes_byteLength_add (s t : Text) (n : Nat) :
    takeBytes (byteLength s + n) (s ++ t) = s ++ takeBytes n t := by
  induction s with
  | nil => simp
  | cons c s ih =>
    have hc := Char.utf8Size_pos c
    rw [byteLength_cons, cons_append, takeBytes, if_neg (by omega), Nat.add_assoc,
      Nat.add_sub_cancel_left, ih, cons_append]

/-- **Slices** of a text in three parts: between the ends of the middle part lies the middle
part. -/
lemma slice_append (x y z : Text) :
    slice (byteLength x) (byteLength x + byteLength y) (x ++ (y ++ z)) = y := by
  rw [slice, Nat.add_sub_cancel_left, dropBytes_byteLength, takeBytes_byteLength]

lemma slice_shift (x t : Text) (i j : Nat) :
    slice (byteLength x + i) (byteLength x + j) (x ++ t) = slice i j t := by
  rw [slice, slice, dropBytes_byteLength_add, Nat.add_sub_add_left]

lemma exists_split_of_isBoundary {i j : Nat} (hi : isBoundary i t)
    (hj : isBoundary j t) (hij : i ≤ j) :
    ∃ x y z, t = x ++ (y ++ z) ∧ i = byteLength x ∧ j = byteLength x + byteLength y := by
  obtain ⟨x, u, rfl, rfl⟩ := isBoundary_iff.mp hi
  obtain ⟨n, rfl⟩ := Nat.exists_eq_add_of_le hij
  rw [isBoundary_byteLength_add] at hj
  obtain ⟨y, z, rfl, rfl⟩ := isBoundary_iff.mp hj
  exact ⟨x, y, z, rfl, rfl, rfl⟩

lemma byteLength_slice {i j : Nat} (hi : isBoundary i t)
    (hj : isBoundary j t) (hij : i ≤ j) : byteLength (slice i j t) = j - i := by
  obtain ⟨x, y, z, rfl, rfl, rfl⟩ := exists_split_of_isBoundary hi hj hij
  rw [slice_append]
  omega

/-! ## The first occurrence of a text -/

/-- **A search that finds**: what stands before the occurrence holds no earlier one, not even one
that reaches into the found one.

**Proof sketch.** Walk through the text. If the needle starts here, nothing stands before it, and
the needle without its last character is too short to hold it. If it does not start here, an
occurrence before the found one would either start here or further on; the first contradicts that
the needle does not start here. -/
lemma beforeSub?_eq_some (hn : needle ≠ []) (h : beforeSub? needle t = some u) :
    (∃ v, t = u ++ (needle ++ v)) ∧ ¬ needle <:+: u ++ needle.dropLast := by
  have hlen : needle.dropLast.length < needle.length := by
    have := length_pos_iff.mpr hn
    rw [length_dropLast]
    omega
  induction t generalizing u with
  | nil => simp [beforeSub?, hn] at h
  | cons c t ih =>
    rw [beforeSub?] at h
    split at h
    · next hp =>
      obtain rfl : [] = u := by simpa using h
      obtain ⟨v, hv⟩ := isPrefixOf_iff_prefix.mp hp
      refine ⟨⟨v, by simp [hv]⟩, fun hin => ?_⟩
      have := hin.length_le
      rw [nil_append] at this
      omega
    · next hp =>
      obtain ⟨w, hw, rfl⟩ := map_eq_some_iff.mp h
      obtain ⟨⟨v, rfl⟩, hno⟩ := ih hw
      refine ⟨⟨v, rfl⟩, fun hin => ?_⟩
      rw [cons_append, infix_cons_iff] at hin
      rcases hin with hpre | hin
      · -- the needle would start at `c`
        apply hp
        have hpart : needle.dropLast <+: needle := dropLast_prefix needle
        have hle := hpart.trans (prefix_append needle v)
        exact isPrefixOf_iff_prefix.mpr <|
          hpre.trans ((prefix_append_right_inj (c :: w)).mpr hle)
      · exact hno hin

/-- **A search that fails**: the needle does not occur. -/
lemma beforeSub?_eq_none (h : beforeSub? needle t = none) : ¬ needle <:+: t := by
  induction t with
  | nil =>
    have hn : needle ≠ [] := by
      rintro rfl
      simp [beforeSub?] at h
    rwa [infix_nil]
  | cons c t ih =>
    rw [beforeSub?] at h
    split at h
    · simp at h
    · next hp =>
      rw [map_eq_none_iff] at h
      rw [infix_cons_iff, ← isPrefixOf_iff_prefix]
      rintro (hpre | hin)
      · exact hp hpre
      · exact ih h hin

lemma beforeSub?_append (h : beforeSub? needle t = some u) (v : Text) :
    beforeSub? needle (t ++ v) = some u := by
  induction t generalizing u with
  | nil =>
    obtain ⟨rfl, rfl⟩ : needle = [] ∧ [] = u := by simpa [beforeSub?] using h
    cases v <;> simp [beforeSub?]
  | cons c t ih =>
    rw [beforeSub?] at h
    rw [cons_append, beforeSub?]
    split at h
    · next hp =>
      have hp' : needle.isPrefixOf (c :: (t ++ v)) := by
        have hp := isPrefixOf_iff_prefix.mp hp
        exact isPrefixOf_iff_prefix.mpr <| hp.trans (prefix_append (c :: t) v)
      rw [if_pos hp', h]
    · next hp =>
      obtain ⟨w, hw, rfl⟩ := map_eq_some_iff.mp h
      have hp' : ¬ needle.isPrefixOf (c :: (t ++ v)) := by
        intro hpre
        apply hp
        rcases eq_or_ne needle [] with rfl | hn
        · simp
        -- the needle fits into `c :: t`, so what follows does not matter
        obtain ⟨r, rfl⟩ := (beforeSub?_eq_some hn hw).1
        have hpre := isPrefixOf_iff_prefix.mp hpre
        refine isPrefixOf_iff_prefix.mpr <| prefix_of_prefix_length_le hpre (prefix_append _ v) ?_
        simp only [length_cons, length_append]
        omega
      rw [if_neg hp', ih hw, map_some]

/-! ## Runs of characters -/

section Run

variable {p : Char → Bool}

lemma take_length_takeWhile (t : Text) : t.take (t.takeWhile p).length = t.takeWhile p :=
  Eq.symm <| prefix_iff_eq_take.mp <| takeWhile_prefix p

lemma drop_length_takeWhile (t : Text) : t.drop (t.takeWhile p).length = t.dropWhile p := by
  induction t with
  | nil => rfl
  | cons c t ih => by_cases hc : p c = true <;> simp [hc, ih]

lemma takeWhile_append_stop {d : Char} (hd : p d = false) (t z : Text) :
    (t ++ d :: z).takeWhile p = t.takeWhile p := by
  induction t with
  | nil => simp [hd]
  | cons c t ih => by_cases hc : p c = true <;> simp [hc, ih]

lemma not_of_mem_head?_dropWhile {t : Text} {c : Char} (h : c ∈ (t.dropWhile p).head?) :
    p c = false := by
  have := head?_dropWhile_not p t
  rw [mem_def] at h
  rw [h] at this
  simpa using this

end Run

/-! ## White space -/

lemma isBlank_of_isAsciiBlank {c : Char} (h : isAsciiBlank c) : isBlank c := by
  simp only [isAsciiBlank, or_eq_true, beq_iff_eq] at h
  rcases h with (((rfl | rfl) | rfl) | rfl) | rfl <;> decide

lemma not_sep_of_mem_splitOnChar {sep : Char → Bool} {w : Text} (h : w ∈ splitOnChar sep t) :
    ∀ c ∈ w, sep c = false := by
  induction t generalizing w with
  | nil =>
    obtain rfl : w = [] := by simpa [splitOnChar] using h
    simp
  | cons d t ih =>
    rw [splitOnChar] at h
    split at h
    · rcases mem_cons.mp h with rfl | h
      · simp
      · exact ih h
    · next hd =>
      rw [not_eq_true] at hd
      split at h
      · obtain rfl : w = [d] := by simpa using h
        simpa using hd
      · next q qs hs =>
        rw [hs] at ih
        rcases mem_cons.mp h with rfl | h
        · intro c hc
          rcases mem_cons.mp hc with rfl | hc
          · exact hd
          · exact ih mem_cons_self c hc
        · exact ih (mem_cons_of_mem q h)

lemma of_mem_words {w : Text} (h : w ∈ words t) : w ≠ [] ∧ ∀ c ∈ w, isBlank c = false := by
  obtain ⟨hw, hne⟩ := mem_filter.mp h
  exact ⟨by simpa using hne, not_sep_of_mem_splitOnChar hw⟩

lemma exists_eq_trimEnd_append (t : Text) :
    ∃ w, t = trimEnd t ++ w ∧ ∀ c ∈ w, isBlank c := by
  refine ⟨(t.reverse.takeWhile isBlank).reverse, ?_, ?_⟩
  · rw [trimEnd, ← reverse_append, takeWhile_append_dropWhile, reverse_reverse]
  · intro c hc
    rw [mem_reverse] at hc
    exact mem_takeWhile_imp hc

end SqlOutline.Text
