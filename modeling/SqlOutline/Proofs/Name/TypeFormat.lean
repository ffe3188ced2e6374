import SqlOutline.Name
import SqlOutline.Proofs.Text.Trim

/-!
# White space in type spellings

A type is brought into its one form by several passes, each of which drops the runs of white space
at one kind of place.

## Main definitions

* `squeeze`, `keepsRun` — a pass, and the runs that are kept in the end.

## Main results

* `squeeze_squeeze` — two passes are one that keeps what both keep.
* `normalizeType?_squeezes` — a type loses exactly the white space that does not matter.
-/

namespace SqlOutline.Name

open List Text

def solid? (t : Text) : Option Char := (trimStart t).head?

/-- A text without the runs of white space that are not kept between the character before them and
the one behind them; `before` is the last character before the text that is no white space. -/
def squeeze (keeps : Option Char → Option Char → Bool) (before : Option Char) : Text → Text
  | [] => []
  | c :: t =>
    if isBlank c then
      if keeps before (solid? t) then c :: squeeze keeps before t else squeeze keeps before t
    else c :: squeeze keeps (some c) t

/-- The runs that a type spelling keeps: they stand between two characters, do not follow an opening
parenthesis or a comma, and are not followed by a parenthesis or a comma. -/
def keepsRun (before after : Option Char) : Bool :=
  before.any (!contains ['(', ','] ·) && after.any (!contains ['(', ')', ','] ·)

/-! ## Passes -/

variable (before : Option Char) (t : Text)

section Pass

variable {c : Char} {keeps more : Option Char → Option Char → Bool}

lemma solid?_blank (hc : isBlank c) (t : Text) : solid? (c :: t) = solid? t := by
  simp [solid?, trimStart, hc]

lemma solid?_cons (hc : isBlank c = false) (t : Text) : solid? (c :: t) = some c := by
  simp [solid?, trimStart, hc]

lemma solid?_squeeze : solid? (squeeze keeps before t) = solid? t := by
  induction t with
  | nil => rfl
  | cons c t ih =>
    rw [squeeze]
    split_ifs with hc hkeep
    · rw [solid?_blank hc, solid?_blank hc, ih]
    · rw [solid?_blank hc, ih]
    · rw [Bool.not_eq_true] at hc
      rw [solid?_cons hc, solid?_cons hc]

/-- **Two passes are one** that keeps what both keep. -/
lemma squeeze_squeeze : squeeze more before (squeeze keeps before t) =
      squeeze (fun b a => keeps b a && more b a) before t := by
  induction t generalizing before with
  | nil => rfl
  | cons c t ih =>
    by_cases hc : isBlank c
    · by_cases hkeep : keeps before (solid? t)
      · simp [squeeze, hc, hkeep, solid?_squeeze, ih]
      · simp [squeeze, hc, hkeep, ih]
    · simp [squeeze, hc, ih]

lemma trimStart_eq_squeeze : trimStart t = squeeze (fun b _ => b.isSome) none t := by
  have hkept (d : Char) (t : Text) : squeeze (fun b _ => b.isSome) (some d) t = t := by
    induction t generalizing d with
    | nil => rfl
    | cons c t ih => simp [squeeze, ih]
  induction t with
  | nil => rfl
  | cons c t ih =>
    by_cases hc : isBlank c
    · simpa [trimStart, squeeze, hc] using ih
    · simp [trimStart, squeeze, hc, hkept]

lemma trimEnd_eq_squeeze : trimEnd t = squeeze (fun _ a => a.isSome) before t := by
  induction t generalizing before with
  | nil => rfl
  | cons c t ih =>
    by_cases hc : isBlank c
    · cases hsolid : trimStart t with
      | nil =>
        have hall : ∀ d ∈ c :: t, isBlank d := by
          simpa [trimStart, dropWhile_eq_nil_iff, hc] using hsolid
        have hend {x : Text} (hx : ∀ d ∈ x, isBlank d) : trimEnd x = [] := by
          simpa [trimEnd] using hx
        rw [squeeze, if_pos hc, solid?, hsolid, ← ih, hend hall,
          hend fun d hd => hall d (.tail c hd)]
        rfl
      | cons d r =>
        have hd : isBlank d = false := by
          have hnot := head?_dropWhile_not isBlank t
          rwa [← trimStart, hsolid] at hnot
        obtain ⟨w, hw⟩ : trimStart t <:+ t := dropWhile_suffix isBlank
        rw [squeeze, if_pos hc, solid?, hsolid, ← ih, ← hw, hsolid, ← cons_append,
          trimEnd_append_cons hd, trimEnd_append_cons hd]
        rfl
    · rw [Bool.not_eq_true] at hc
      have hcons := trimEnd_append_cons hc [] t
      simpa [squeeze, hc, ← ih] using hcons

lemma dropBlankBefore_eq_squeeze (c : Char) (before : Option Char) (t : Text) :
    dropBlankBefore c t = squeeze (fun _ a => a != some c) before t := by
  induction t generalizing before with
  | nil => rfl
  | cons d t ih =>
    by_cases hd : isBlank d
    · by_cases hnext : solid? t = some c
      · rw [dropBlankBefore, squeeze, ih before]
        simp_all [solid?, trimStart]
      · rw [dropBlankBefore, squeeze, ih before]
        simp_all [solid?, trimStart]
    · simp [dropBlankBefore, squeeze, hd, ih (some d)]

lemma dropBlankAfterFrom_eq_squeeze (hc : isBlank c = false) (before : Option Char) (t : Text) :
    dropBlankAfterFrom c (before == some c) t = squeeze (fun b _ => b != some c) before t := by
  induction t generalizing before with
  | nil => rfl
  | cons d t ih =>
    by_cases hd : isBlank d
    · have hne : (d == c) = false := by
        rw [beq_eq_false_iff_ne]
        rintro rfl
        rw [hc] at hd
        cases hd
      have hrun := ih before
      cases hbefore : before == some c with
      | true => simpa [dropBlankAfterFrom, squeeze, hd, bne, hbefore] using hrun
      | false => simpa [dropBlankAfterFrom, squeeze, hd, bne, hbefore, hne] using hrun
    · simpa [dropBlankAfterFrom, squeeze, hd] using ih (some d)

end Pass

/-! ## All passes -/

lemma passes_eq_squeeze :
    dropBlankAfter ',' (dropBlankBefore ',' (dropBlankBefore ')' (dropBlankAfter '('
      (dropBlankBefore '(' (trim t))))) = squeeze keepsRun none t := by
  have hafter {c : Char} (hc : isBlank c = false) (t : Text) :
      dropBlankAfter c t = squeeze (fun b _ => b != some c) none t :=
    dropBlankAfterFrom_eq_squeeze hc none t
  rw [trim, trimEnd_eq_squeeze none, trimStart_eq_squeeze, hafter (by decide), hafter (by decide),
    dropBlankBefore_eq_squeeze _ none, dropBlankBefore_eq_squeeze _ none,
    dropBlankBefore_eq_squeeze _ none]
  simp only [squeeze_squeeze]
  congr 1
  funext b a
  rw [Bool.eq_iff_iff]
  cases b <;> cases a <;> simp [keepsRun]
  constructor
  · rintro ⟨⟨⟨⟨h₁, h₂⟩, h₃⟩, h₄⟩, h₅⟩
    exact ⟨⟨h₂, h₅⟩, h₁, h₃, h₄⟩
  · rintro ⟨⟨h₂, h₅⟩, h₁, h₃, h₄⟩
    exact ⟨⟨⟨⟨h₁, h₂⟩, h₃⟩, h₄⟩, h₅⟩

/-- **A type spelling loses exactly the white space that does not matter.** A blank text is no type
spelling. Any other text keeps its characters in order, but for the runs of white space at its ends,
behind an opening parenthesis or a comma, and before a parenthesis or a comma. So a spelling in its
one form stays as it is. -/
theorem normalizeType?_squeezes (t : Text) :
    normalizeType? t = (if t.all isBlank then none else some (squeeze keepsRun none t)) ∧
      (normalizeType? t).bind normalizeType? = normalizeType? t := by
  have hblank (t : Text) : t.all isBlank = true ↔ solid? t = none := by
    simp [solid?, trimStart]
  have hform (t : Text) :
      normalizeType? t = if t.all isBlank then none else some (squeeze keepsRun none t) := by
    have htrim : trim t = [] ↔ solid? t = none := by
      have hsolid : solid? (trim t) = solid? t := by
        rw [trim, trimEnd_eq_squeeze none, solid?_squeeze, trimStart_eq_squeeze, solid?_squeeze]
      refine ⟨fun h => by rw [← hsolid, h]; rfl, fun h => ?_⟩
      rw [trim, head?_eq_none_iff.mp h]
      rfl
    rw [← passes_eq_squeeze, normalizeType?]
    simp only [hblank, ← htrim]
    cases trim t <;> rfl
  refine ⟨hform t, ?_⟩
  rw [hform t]
  split_ifs with hall
  · rfl
  · rw [Option.bind_some, hform, if_neg, squeeze_squeeze]
    · simp only [Bool.and_self]
    · rwa [hblank, solid?_squeeze, ← hblank]

end SqlOutline.Name
