import Mathlib.Data.List.Chain
import Mathlib.Data.List.DropRight
import Mathlib.Data.List.TakeWhile
import SqlOutline.Text.Blank

/-!
# White space at the ends of texts

A character that is no white space keeps apart what is cut off at the two ends.

## Main definitions

* `Tight` — texts without white space at the ends that meet.

## Main results

* `trim_append_cons` — texts with such a character between them.
* `trim_join_eq_iff` — when cutting off white space commutes with putting together.
-/

namespace SqlOutline.Text

open List

/-! ## Ends -/

variable {c : Char}

lemma trimStart_append_cons (hc : isBlank c = false) (x y : Text) :
    trimStart (x ++ c :: y) = trimStart x ++ c :: y := by
  induction x with
  | nil => simp [trimStart, hc]
  | cons d x ih =>
    by_cases hd : isBlank d
    · simpa [trimStart, hd] using ih
    · simp [trimStart, hd]

lemma trimEnd_append_cons (hc : isBlank c = false) (x y : Text) :
    trimEnd (x ++ c :: y) = x ++ c :: trimEnd y := by
  have h := trimStart_append_cons hc y.reverse x.reverse
  unfold trimStart at h
  simp [trimEnd, h]

/-- **A character that is no white space keeps the ends apart.** -/
lemma trim_append_cons (hc : isBlank c = false) (x y : Text) :
    trim (x ++ c :: y) = trimStart x ++ c :: trimEnd y := by
  rw [trim, trimStart_append_cons hc, trimEnd_append_cons hc]

lemma exists_of_trim_ne_nil {t : Text} (h : trim t ≠ []) :
    ∃ w c r, t = w ++ c :: r ∧ isBlank c = false ∧ ∀ d ∈ w, isBlank d := by
  have hstart : trimStart t ≠ [] := by
    intro hnil
    rw [trim, hnil] at h
    exact h rfl
  obtain ⟨c, r, hcr⟩ := exists_cons_of_ne_nil hstart
  refine ⟨t.takeWhile isBlank, c, r, ?_, ?_, fun d hd => mem_takeWhile_imp hd⟩
  · rw [← hcr, trimStart, takeWhile_append_dropWhile]
  · have hhead : isBlank ((trimStart t).head hstart) = false := by
      simpa [trimStart] using head_dropWhile_not isBlank hstart
    simpa [hcr] using hhead

lemma trimStart_of_blank {w : Text} (hw : ∀ d ∈ w, isBlank d) : trimStart w = [] :=
  dropWhile_eq_nil_iff.mpr hw

variable (t : Text)

lemma trimEnd_sublist : (trimEnd t).Sublist t := by
  rw [trimEnd, ← reverse_sublist, reverse_reverse]
  exact dropWhile_sublist _

lemma trim_sublist_trimStart : (trim t).Sublist (trimStart t) :=
  trimEnd_sublist (trimStart t)

lemma trim_sublist : (trim t).Sublist t :=
  (trim_sublist_trimStart t).trans (dropWhile_sublist _)

lemma length_trim_le : (trim t).length ≤ t.length :=
  (trim_sublist t).length_le

lemma trimStart_trimStart : trimStart (trimStart t) = trimStart t :=
  dropWhile_idempotent isBlank t

lemma trimEnd_trimEnd : trimEnd (trimEnd t) = trimEnd t :=
  rdropWhile_idempotent isBlank t

lemma trim_trimStart : trim (trimStart t) = trim t := by
  rw [trim, trimStart_trimStart, ← trim]

section Ends

variable {t : Text} (h : trim t ≠ [])

include h

lemma trim_trimEnd : trim (trimEnd t) = trim t := by
  obtain ⟨w, c, r, rfl, hc, hw⟩ := exists_of_trim_ne_nil h
  rw [trimEnd_append_cons hc, trim_append_cons hc, trim_append_cons hc, trimEnd_trimEnd]

lemma trim_trim : trim (trim t) = trim t := by
  have hstart : trim (trimStart t) ≠ [] := by rwa [trim_trimStart]
  exact (trim_trimEnd hstart).trans (trim_trimStart t)

lemma trim_suffix_trimEnd : trim t <:+ trimEnd t := by
  obtain ⟨w, c, r, rfl, hc, hw⟩ := exists_of_trim_ne_nil h
  rw [trim_append_cons hc, trimEnd_append_cons hc, trimStart_of_blank hw]
  exact ⟨w, rfl⟩

lemma trimEnd_eq_trim_iff : trimEnd t = trim t ↔ trimStart t = t := by
  obtain ⟨w, c, r, rfl, hc, hw⟩ := exists_of_trim_ne_nil h
  rw [trim_append_cons hc, trimStart_append_cons hc, trimEnd_append_cons hc, trimStart_of_blank hw,
    append_cancel_right_eq, append_cancel_right_eq]
  exact eq_comm

lemma trimStart_eq_trim_iff : trimStart t = trim t ↔ trimEnd t = t := by
  obtain ⟨w, c, r, rfl, hc, hw⟩ := exists_of_trim_ne_nil h
  rw [trim_append_cons hc, trimStart_append_cons hc, trimEnd_append_cons hc,
    append_cancel_left_eq, append_cancel_left_eq]
  exact eq_comm

lemma eq_trim_iff : t = trim t ↔ trimStart t = t ∧ trimEnd t = t := by
  constructor
  · intro ht
    have hlength : (trim t).length ≤ (trimEnd t).length := (trim_suffix_trimEnd h).length_le
    rw [← ht] at hlength
    have hend : trimEnd t = t := (trimEnd_sublist t).eq_of_length_le hlength
    exact ⟨(trimEnd_eq_trim_iff h).mp (hend.trans ht), hend⟩
  · rintro ⟨hstart, hend⟩
    rw [trim, hstart, hend]

end Ends

/-! ## Texts put together -/

/-- Texts without white space at the ends that meet when they are put together. -/
def Tight (ps : List Text) : Prop :=
  ps.IsChain fun p q => trimEnd p = p ∧ trimStart q = q

instance (ps : List Text) : Decidable (Tight ps) :=
  inferInstanceAs (Decidable (List.IsChain _ ps))

variable {p : Text} {ps : List Text}

lemma tight_cons_cons {q : Text} :
    Tight (p :: q :: ps) ↔ (trimEnd p = p ∧ trimStart q = q) ∧ Tight (q :: ps) :=
  isChain_cons_cons

lemma append_cons_inj_of_length_le {a b x y : Text} (hab : b.length ≤ a.length)
    (hxy : y.length ≤ x.length) : a ++ c :: x = b ++ c :: y ↔ a = b ∧ x = y := by
  constructor
  · intro heq
    have hlength := congrArg length heq
    simp only [length_append, length_cons] at hlength
    have hparts := append_inj heq (by omega)
    exact ⟨hparts.1, (cons.inj hparts.2).2⟩
  · rintro ⟨rfl, rfl⟩
    rfl

lemma join_cons_cons (c : Char) (p q : Text) (ps : List Text) :
    join [c] (p :: q :: ps) = p ++ c :: join [c] (q :: ps) := by
  simp [join]

section Join

variable {glue : Char} (hglue : isBlank glue = false)

include hglue

lemma length_join_trim_le (h : ∀ q ∈ p :: ps, trim q ≠ []) :
    (join [glue] ((p :: ps).map trim)).length ≤ (trimEnd (join [glue] (p :: ps))).length := by
  induction ps generalizing p with
  | nil => exact (trim_suffix_trimEnd (h p mem_cons_self)).length_le
  | cons q ps ih =>
    rw [forall_mem_cons] at h
    have hp := length_trim_le p
    have hrest := ih h.2
    rw [map_cons] at hrest
    rw [map_cons, map_cons, join_cons_cons, join_cons_cons, trimEnd_append_cons hglue,
      length_append, length_append, length_cons, length_cons]
    omega

lemma trimEnd_join_eq_iff (h : ∀ q ∈ p :: ps, trim q ≠ []) :
    trimEnd (join [glue] (p :: ps)) = join [glue] ((p :: ps).map trim) ↔
      trimStart p = p ∧ Tight (p :: ps) := by
  induction ps generalizing p with
  | nil =>
    show trimEnd p = trim p ↔ _
    rw [trimEnd_eq_trim_iff (h p mem_cons_self)]
    simp [Tight]
  | cons q ps ih =>
    have hle := length_join_trim_le hglue (forall_mem_cons.mp h).2
    have hrest := ih (forall_mem_cons.mp h).2
    rw [map_cons] at hle hrest
    rw [map_cons, map_cons, join_cons_cons, join_cons_cons, trimEnd_append_cons hglue,
      append_cons_inj_of_length_le (length_trim_le p) hle, hrest,
      eq_trim_iff (h p mem_cons_self), tight_cons_cons]
    tauto

/-- **Cutting off white space commutes with putting together** exactly for texts that have no white
space where they meet. -/
lemma trim_join_eq_iff (h : ∀ p ∈ ps, trim p ≠ []) :
    trim (join [glue] ps) = join [glue] (ps.map trim) ↔ Tight ps := by
  match ps, h with
  | [], _ => simp [join, trim, trimStart, trimEnd, Tight]
  | [p], _ => simp [join, Tight]
  | p :: q :: ps, h =>
    have hle := length_join_trim_le hglue (forall_mem_cons.mp h).2
    have hrest := trimEnd_join_eq_iff hglue (forall_mem_cons.mp h).2
    have hp : (trim p).length ≤ (trimStart p).length := (trim_sublist_trimStart p).length_le
    rw [map_cons] at hle hrest
    rw [map_cons, map_cons, join_cons_cons, join_cons_cons, trim_append_cons hglue,
      append_cons_inj_of_length_le hp hle, hrest, trimStart_eq_trim_iff (h p mem_cons_self),
      tight_cons_cons, and_assoc]

end Join

end SqlOutline.Text
