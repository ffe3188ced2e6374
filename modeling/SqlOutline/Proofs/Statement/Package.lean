import SqlOutline.Proofs.Statement.Nesting

/-!
# Packages

Whether a statement defines a package is looked for among its first lexemes, so that it can also be
found in the body of a short definition of something else.

## Main definitions

* `DefinesPackage`, `OpensPackage` — lexemes taken for a package, and those of an open one.

## Main results

* `package_read`, `packageOpened_read` — when the splitter has found or opened one.
-/

namespace SqlOutline

open Option List Splitter

/-! ## Headers -/

def endsHeader (l : Lexeme) : Bool :=
  l.isSymbol '(' || l.isAnyWord plainObjectWords || l.isAnyWord routineWords

def isPackageWord (l : Lexeme) (after : Option Lexeme) : Bool :=
  l.isWord "PACKAGE" || (l.isWord "TYPE" && after.any (·.isWord "BODY"))

/-- Lexemes that leave open what is defined: the first one is `CREATE` or `ALTER`, and no other
tells that it is no package. -/
def OpenHeader (ls : List Lexeme) : Prop :=
  ∀ first rest, ls = first :: rest →
    first.isAnyWord ["CREATE", "ALTER"] ∧ ∀ l ∈ rest, endsHeader l = false

/-- Lexemes that are taken for the definition of a package: a word that tells so is among the first
of them, behind an open header. -/
def DefinesPackage (ls : List Lexeme) (after : Option Lexeme) : Prop :=
  ∃ ks l rest, ls = ks ++ l :: rest ∧ (ks ≠ [] ∧ ks.length < headerWindow ∧
    OpenHeader ks ∧ isPackageWord l (rest.head?.or after))

/-- Lexemes behind which a package counts as a block: they are taken for the definition of a
package, and then an `AS` or `IS` stands before a word, outside of parentheses. -/
def OpensPackage (ls : List Lexeme) (after : Option Lexeme) : Prop :=
  ∃ ks l rest, ls = ks ++ l :: rest ∧ (DefinesPackage ks (some l) ∧ parenDepth ks = 0 ∧
    bodyFollows ks.getLast? l (rest.head?.or after))

variable {ls : List Lexeme} {l : Lexeme} {after : Option Lexeme}

lemma definesPackage_concat : DefinesPackage (ls ++ [l]) after ↔ DefinesPackage ls (some l) ∨
      (ls ≠ [] ∧ ls.length < headerWindow ∧ OpenHeader ls ∧
        isPackageWord l after) := by
  unfold DefinesPackage
  rw [exists_split_concat]
  simp only [head?_append, Option.or_assoc, head?_cons, some_or, head?_nil, none_or]

lemma opensPackage_concat : OpensPackage (ls ++ [l]) after ↔ OpensPackage ls (some l) ∨
      (DefinesPackage ls (some l) ∧ parenDepth ls = 0 ∧
        bodyFollows ls.getLast? l after) := by
  unfold OpensPackage
  rw [exists_split_concat]
  simp only [head?_append, Option.or_assoc, head?_cons, some_or, head?_nil, none_or]

lemma opensPackage_iff_of_not_word
    (h : after.any (·.kind == .word) = false) : OpensPackage ls after ↔ OpensPackage ls none := by
  rcases eq_nil_or_concat' ls with rfl | ⟨ls, l, rfl⟩
  · simp [OpensPackage]
  · rw [opensPackage_concat, opensPackage_concat, bodyFollows, bodyFollows, h]
    rfl

lemma openHeader_concat (hls : ls ≠ []) :
    OpenHeader (ls ++ [l]) ↔ OpenHeader ls ∧ endsHeader l = false := by
  obtain ⟨first, rest, rfl⟩ := exists_cons_of_ne_nil hls
  constructor
  · intro h
    obtain ⟨hfirst, hrest⟩ := h first (rest ++ [l]) rfl
    refine ⟨?_, hrest l (by simp)⟩
    intro f r hfr
    obtain ⟨rfl, rfl⟩ := cons.inj hfr
    exact ⟨hfirst, fun m hm => hrest m (mem_append_left [l] hm)⟩
  · rintro ⟨h, hl⟩ f r hfr
    obtain ⟨rfl, rfl⟩ := cons.inj hfr
    obtain ⟨hfirst, hrest⟩ := h first rest rfl
    refine ⟨hfirst, fun m hm => ?_⟩
    rcases mem_append.mp hm with hm | hm
    · exact hrest m hm
    · rw [mem_singleton.mp hm, hl]

lemma endsHeader_of_isPackageWord (h : isPackageWord l after) : endsHeader l = false := by
  have hword : l.kind = .word ∧ (l.upper = "PACKAGE" ∨ l.upper = "TYPE") := by
    simp only [isPackageWord, Lexeme.isWord, Bool.or_eq_true, Bool.and_eq_true, beq_iff_eq] at h
    tauto
  obtain ⟨hk, hu | hu⟩ := hword <;>
    simp [endsHeader, Lexeme.isSymbol, Lexeme.isAnyWord, hk, hu, plainObjectWords, routineWords]

/-! ## What the splitter knows about packages -/

namespace Splitter

variable (s : Splitter) (l : Lexeme) (after : Option Lexeme)

lemma observeHead_first (hcount : s.count = 0) (hdone : s.headerDone = false) :
    (s.observeHead l after).headerDone = !l.isAnyWord ["CREATE", "ALTER"] ∧
      (s.observeHead l after).package = s.package ∧
      (s.observeHead l after).routine = s.routine := by
  rw [observeHead, hdone, if_pos (by simp [hcount, headerWindow]), observeHeader, if_pos hcount]
  cases l.isAnyWord ["CREATE", "ALTER"] with
  | true => exact ⟨hdone, rfl, rfl⟩
  | false => exact ⟨rfl, rfl, rfl⟩

lemma observeHead_inside (hcount : s.count ≠ 0) (hwindow : s.count < headerWindow)
    (hdone : s.headerDone = false) :
    (s.observeHead l after).headerDone = (endsHeader l || isPackageWord l after) ∧
      (s.observeHead l after).package = (s.package || isPackageWord l after) ∧
      ((s.package → s.routine) → (s.observeHead l after).package →
        (s.observeHead l after).routine) := by
  have hnot : endsHeader l → isPackageWord l after = false := by
    intro hends
    by_contra hword
    rw [endsHeader_of_isPackageWord (Bool.not_eq_false _ ▸ hword)] at hends
    cases hends
  rw [observeHead, hdone, if_pos (by simp [hwindow]), observeHeader, if_neg hcount]
  by_cases hplain : (l.isSymbol '(' || l.isAnyWord plainObjectWords)
  · have hends : endsHeader l := by rw [endsHeader, hplain, Bool.true_or]
    rw [if_pos hplain, hends, hnot hends]
    exact ⟨rfl, (Bool.or_false _).symm, id⟩
  rw [if_neg hplain]
  by_cases hroutine : l.isAnyWord routineWords
  · have hends : endsHeader l := by rw [endsHeader, hroutine, Bool.or_true]
    rw [if_pos hroutine, hends, hnot hends]
    exact ⟨rfl, (Bool.or_false _).symm, fun _ _ => rfl⟩
  have hends : endsHeader l = false := by simpa [endsHeader, hroutine] using hplain
  rw [if_neg hroutine, hends, ← isPackageWord]
  cases hword : isPackageWord l after with
  | true => exact ⟨rfl, (Bool.or_true _).symm, fun _ _ => rfl⟩
  | false => exact ⟨hdone, (Bool.or_false _).symm, id⟩

lemma observeHead_outside (h : s.headerDone ∨ ¬ s.count < headerWindow) :
    s.observeHead l after = s := by
  rw [observeHead, if_neg]
  rcases h with h | h <;> simp [h]

lemma count_read (before : Option Lexeme) (ls : List Lexeme) :
    (s.read before ls after).count = s.count + ls.length := by
  induction ls generalizing s before with
  | nil => rfl
  | cons l ls ih =>
    rw [read, ih, count_observe, length_cons]
    omega

end Splitter

/-- **What the splitter knows about the header** behind the first lexemes of a statement: whether it
is open, while no package has been found, and whether a package has been found.

**Proof sketch.** Induction on the lexemes, from the last one on. Both are told together, because
the header is looked at only until a package is found. -/
lemma header_read (ls : List Lexeme) (after : Option Lexeme) :
    (ls.length ≤ headerWindow → (read {} none ls after).package = false →
      ((read {} none ls after).headerDone = false ↔ OpenHeader ls)) ∧
    ((read {} none ls after).package ↔ DefinesPackage ls after) ∧
    ((read {} none ls after).package →
      (read {} none ls after).routine) := by
  induction ls using reverseRecOn generalizing after with
  | nil =>
    refine ⟨fun _ _ => iff_of_true rfl nofun, iff_of_false nofun ?_, nofun⟩
    rintro ⟨ks, l, rest, hnil, -⟩
    simp at hnil
  | append_singleton ls l ih =>
    obtain ⟨hopen, hpackage, hroutine⟩ := ih (some l)
    have hcount : (read {} none ls (some l)).count = ls.length := by
      rw [count_read]
      exact Nat.zero_add _
    set s := read {} none ls (some l) with hs
    rw [read_concat, ← hs, headerDone_observe, package_observe,
      routine_observe, definesPackage_concat, ← hpackage, length_append, length_singleton]
    by_cases hnil : ls = []
    · -- the first lexeme
      subst hnil
      obtain ⟨hd, hp, hr⟩ := s.observeHead_first l after hcount rfl
      rw [hd, hp, hr]
      refine ⟨fun _ _ => ?_, by simp, hroutine⟩
      simp [OpenHeader]
    by_cases hout : s.headerDone ∨ ¬ s.count < headerWindow
    · -- the header is closed, or the window is passed
      rw [s.observeHead_outside l after hout]
      have hclosed : ls.length < headerWindow → s.package = false → ¬ OpenHeader ls := by
        intro hlen hno hheader
        rw [← hopen hlen.le hno] at hheader
        rcases hout with hdone | hwindow
        · rw [hheader] at hdone
          cases hdone
        · exact hwindow (by omega)
      refine ⟨fun hlen hno => ?_, ?_, hroutine⟩
      · have hnot := hclosed hlen hno
        rw [openHeader_concat hnil, hopen (by omega) hno]
        exact iff_of_false hnot fun h => hnot h.1
      · cases hno : s.package with
        | true => simp
        | false =>
          refine iff_of_false nofun ?_
          rintro (h | ⟨-, hlen, hheader, -⟩)
          · cases h
          · exact hclosed hlen hno hheader
    · -- the lexeme is looked at
      rw [not_or, not_not, Bool.not_eq_true] at hout
      obtain ⟨hdone, hwindow⟩ := hout
      have hlen : ls.length < headerWindow := by omega
      have hcount' : s.count ≠ 0 := by
        rw [hcount]
        simpa using hnil
      obtain ⟨hd, hp, hr⟩ := s.observeHead_inside l after hcount' hwindow hdone
      refine ⟨fun _ hno => ?_, ?_, hr hroutine⟩
      · rw [hp, Bool.or_eq_false_iff] at hno
        have hheader := (hopen hlen.le hno.1).mp hdone
        rw [hd, hno.2, Bool.or_false, openHeader_concat hnil]
        exact ⟨fun h => ⟨hheader, h⟩, fun h => h.2⟩
      · rw [hp, Bool.or_eq_true]
        cases hno : s.package with
        | true => simp
        | false =>
          have hheader := (hopen hlen.le hno).mp hdone
          simp [hnil, hlen, hheader]

/-- **When a package has been found.** -/
lemma package_read (ls : List Lexeme) (after : Option Lexeme) :
    (read {} none ls after).package ↔ DefinesPackage ls after :=
  (header_read ls after).2.1

/-- **When a package counts as a block.** -/
lemma packageOpened_read (ls : List Lexeme) (after : Option Lexeme) :
    (read {} none ls after).packageOpened ↔ OpensPackage ls after := by
  induction ls using reverseRecOn generalizing after with
  | nil =>
    refine iff_of_false nofun ?_
    rintro ⟨ks, l, rest, hnil, -⟩
    simp at hnil
  | append_singleton ls l ih =>
    have hparens : (read {} none ls (some l)).parens = parenDepth ls :=
      parens_read {} none (some l) ls
    have hroutine := (header_read ls (some l)).2.2
    rw [read_concat, packageOpened_observe, opensPackage_concat, ← ih (some l),
      ← package_read, ← hparens, or_none]
    set s := read {} none ls (some l)
    cases hopened : s.packageOpened with
    | true => simp
    | false =>
      cases hp : s.package with
      | true => simp [opensPackage, hopened, hp, hroutine hp]
      | false => simp [opensPackage, hp]

instance (ls : List Lexeme) (after : Option Lexeme) : Decidable (OpensPackage ls after) :=
  decidable_of_iff _ (packageOpened_read ls after)

end SqlOutline
