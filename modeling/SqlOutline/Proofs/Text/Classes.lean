import SqlOutline.Proofs.Text.Words
import SqlOutline.Text.WordChars

/-!
# Classes of characters

ASCII letters are word characters of one byte and no white space.

## Main results

* `isWordChar_eq_false_of_isBlank` — white space is no part of a word.
* `append_inj_of_class` — the run of a class with which a text starts.
-/

namespace SqlOutline.Text

open List

/-! ## Letters -/

variable {c : Char}

lemma isAsciiAlpha_of_toUpper (h : isAsciiAlpha c.toUpper) : isAsciiAlpha c := by
  by_contra hc
  rw [toUpper_of_not_isAsciiAlpha (by simpa using hc)] at h
  exact hc h

lemma toNat_of_isAsciiAlpha (h : isAsciiAlpha c) : 65 ≤ c.toNat ∧ c.toNat ≤ 122 := by
  have hle : ∀ a b : Char, a ≤ b ↔ a.toNat ≤ b.toNat := fun _ _ => Iff.rfl
  simp only [isAsciiAlpha, Bool.or_eq_true, Bool.and_eq_true, decide_eq_true_eq, hle] at h
  have ha : 'a'.toNat = 97 := rfl
  have hz : 'z'.toNat = 122 := rfl
  have hA : 'A'.toNat = 65 := rfl
  have hZ : 'Z'.toNat = 90 := rfl
  omega

lemma isWordChar_of_isAsciiAlpha (h : isAsciiAlpha c) : isWordChar c := by
  have hwide : isWide c = false := by
    have := toNat_of_isAsciiAlpha h
    simp only [isWide, decide_eq_false_iff_not]
    omega
  simp [isWordChar, hwide, isAsciiAlnum, h]

lemma isBlank_eq_false_of_isAsciiAlpha (h : isAsciiAlpha c) : isBlank c = false := by
  have := toNat_of_isAsciiAlpha h
  simp only [isBlank, Bool.or_eq_false_iff, Bool.and_eq_false_iff, decide_eq_false_iff_not,
    beq_eq_false_iff_ne]
  omega

lemma utf8Size_of_isAsciiAlpha (h : isAsciiAlpha c) : c.utf8Size = 1 := by
  rw [Char.utf8Size_eq_one_iff, UInt32.le_iff_toNat_le]
  exact Nat.le_trans (toNat_of_isAsciiAlpha h).2 (by decide)

/-! ## White space -/

def blankCodes : List Nat :=
  [0x09, 0x0A, 0x0B, 0x0C, 0x0D, 0x20, 0x85, 0xA0, 0x1680, 0x2000, 0x2001, 0x2002, 0x2003, 0x2004,
    0x2005, 0x2006, 0x2007, 0x2008, 0x2009, 0x200A, 0x2028, 0x2029, 0x202F, 0x205F, 0x3000]

lemma toNat_mem_blankCodes (h : isBlank c) : c.toNat ∈ blankCodes := by
  simp only [isBlank, Bool.or_eq_true, Bool.and_eq_true, decide_eq_true_eq, beq_iff_eq] at h
  simp only [blankCodes, mem_cons, not_mem_nil, or_false]
  omega

/-- **White space is no part of a word.** -/
lemma isWordChar_eq_false_of_isBlank (h : isBlank c) : isWordChar c = false := by
  have hall : ∀ n ∈ blankCodes, isWordChar (Char.ofNat n) = false := by decide +kernel
  have hc := hall _ (toNat_mem_blankCodes h)
  rwa [Char.ofNat_toNat] at hc

/-! ## Runs of a class -/

lemma takeWhile_append_of_class {f : Char → Bool} {x y : Text} (hx : ∀ c ∈ x, f c)
    (hy : y.head?.any f = false) : (x ++ y).takeWhile f = x := by
  rw [takeWhile_append_of_pos hx]
  cases y with
  | nil => simp
  | cons c y => simp [show f c = false from hy]

/-- **The run of a class with which a text starts** is told by the text. -/
lemma append_inj_of_class {f : Char → Bool} {x y z w : Text} (h : x ++ y = z ++ w)
    (hx : ∀ c ∈ x, f c) (hz : ∀ c ∈ z, f c) (hy : y.head?.any f = false)
    (hw : w.head?.any f = false) : x = z ∧ y = w := by
  obtain rfl : x = z := by
    rw [← takeWhile_append_of_class hx hy, h, takeWhile_append_of_class hz hw]
  exact ⟨rfl, append_cancel_left h⟩

end SqlOutline.Text
