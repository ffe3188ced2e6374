import SqlOutline.Dialect.Detect
import SqlOutline.Proofs.Text.Trim
import SqlOutline.Proofs.Text.Words

/-!
# Remarks and dialects

A dialect is told from the lines of a text that are neither blank nor comments. Where a comment is
open, what is put there could end it.

## Main definitions

* `IsRemark` — lines that are blank or make up a comment.
* `endsInComment` — whether a block comment is open at the end of a text.

## Main results

* `contentLines_insert` — remarks between lines do not count.
* `detectDialect_insert_remarks` — remarks have no influence on the dialect.
-/

namespace SqlOutline

open List Text

variable (inBlock : Bool) (t : Text) (ls : List Text)

lemma Text.trim_dropReturn : trim (dropReturn t) = trim t := by
  unfold dropReturn
  split_ifs with h
  · obtain ⟨u, rfl⟩ := isSuffixOf_iff_suffix.mp h
    rw [dropLast_concat, trim, trim, trimStart, trimStart, dropWhile_append]
    by_cases hu : u.dropWhile isBlank = []
    · simp [hu, isBlank]
    · simp [hu, trimEnd, isBlank]
  · rfl

namespace Detect

/-! ## Comments that are open behind a line -/

/-- Whether a block comment is open behind a line, if `inBlock` says whether one is open before
it. -/
def isOpenBehind (inBlock : Bool) (raw : Text) : Bool :=
  let line := trim raw
  if inBlock then !containsSub ['*', '/'] line
  else ['/', '*'].isPrefixOf line && !containsSub ['*', '/'] (line.drop 2)

/-- Whether a block comment is open at the end of a text. -/
def endsInComment (t : Text) : Bool := (lines t).foldl isOpenBehind false

/-- A blank line, or one that starts with a comment. -/
def isRemarkLine (line : Text) : Bool :=
  line.isEmpty || ['-', '-'].isPrefixOf line || isHashComment line || ['/', '*'].isPrefixOf line

lemma contentLinesFrom_cons (raw : Text) (rest : List Text) :
    contentLinesFrom inBlock (raw :: rest) =
      (if inBlock || isRemarkLine (trim raw) then [] else [trim raw]) ++
        contentLinesFrom (isOpenBehind inBlock raw) rest := by
  unfold isOpenBehind isRemarkLine
  rw [contentLinesFrom]
  generalize trim raw = line
  dsimp only
  cases inBlock with
  | true => rfl
  | false =>
    cases hopen : ['/', '*'].isPrefixOf line with
    | false => cases line.isEmpty || ['-', '-'].isPrefixOf line || isHashComment line <;> simp
    | true =>
      obtain ⟨t, rfl⟩ := isPrefixOf_iff_prefix.mp hopen
      rfl

/-- **Lines that count, in two parts**: the second part sees of the first only whether a block
comment is open. -/
lemma contentLinesFrom_append (ls' : List Text) : contentLinesFrom inBlock (ls ++ ls') =
      contentLinesFrom inBlock ls ++ contentLinesFrom (ls.foldl isOpenBehind inBlock) ls' := by
  induction ls generalizing inBlock with
  | nil => rfl
  | cons raw ls ih =>
    rw [cons_append, contentLinesFrom_cons, contentLinesFrom_cons, ih, append_assoc, foldl_cons]

lemma contentLinesFrom_map_dropReturn :
    contentLinesFrom inBlock (ls.map dropReturn) = contentLinesFrom inBlock ls := by
  induction ls generalizing inBlock with
  | nil => rfl
  | cons raw ls ih =>
    rw [map_cons, contentLinesFrom_cons, contentLinesFrom_cons, isOpenBehind, isOpenBehind,
      trim_dropReturn, ih]

lemma foldl_isOpenBehind_map_dropReturn :
    (ls.map dropReturn).foldl isOpenBehind inBlock = ls.foldl isOpenBehind inBlock := by
  rw [foldl_map]
  congr 1
  funext inBlock raw
  rw [isOpenBehind, trim_dropReturn, isOpenBehind]

lemma isOpenBehind_nil : isOpenBehind inBlock [] = inBlock := by
  cases inBlock <;> rfl

lemma exists_lines_eq : ∃ ls last,
    splitOnChar (· == '\n') t = ls ++ [last] ∧
      (lines t = ls.map dropReturn ∧ last = [] ∨ lines t = ls.map dropReturn ++ [last]) := by
  have hne := splitOnChar_ne_nil (· == '\n') t
  refine ⟨_, _, (dropLast_append_getLast hne).symm, ?_⟩
  unfold lines
  dsimp only
  rw [getLast?_eq_getLast_of_ne_nil hne]
  cases (splitOnChar (· == '\n') t).getLast hne with
  | nil => exact .inl ⟨rfl, rfl⟩
  | cons c r => exact .inr rfl

lemma contentLines_eq : contentLines t = contentLinesFrom false (splitOnChar (· == '\n') t) := by
  obtain ⟨ls, last, hpieces, ⟨hlines, rfl⟩ | hlines⟩ := exists_lines_eq t
  · rw [contentLines, hlines, hpieces, contentLinesFrom_append, contentLinesFrom_map_dropReturn,
      contentLinesFrom_cons]
    simp [isRemarkLine, trim, trimStart, trimEnd, contentLinesFrom]
  · rw [contentLines, hlines, hpieces, contentLinesFrom_append, contentLinesFrom_append,
      contentLinesFrom_map_dropReturn, foldl_isOpenBehind_map_dropReturn]

lemma endsInComment_eq :
    endsInComment t = (splitOnChar (· == '\n') t).foldl isOpenBehind false := by
  obtain ⟨ls, last, hpieces, ⟨hlines, rfl⟩ | hlines⟩ := exists_lines_eq t
  · rw [endsInComment, hlines, hpieces, foldl_append, foldl_isOpenBehind_map_dropReturn]
    exact (isOpenBehind_nil _).symm
  · rw [endsInComment, hlines, hpieces, foldl_append, foldl_append,
      foldl_isOpenBehind_map_dropReturn]

/-! ## Remarks -/

/-- Lines that are blank or make up a comment. A comment may be indented. -/
inductive IsRemark : List Text → Prop
  | blank {l : Text} (h : ∀ c ∈ l, isBlank c) : IsRemark [l]
  | dashes {w t : Text} (hw : ∀ c ∈ w, isBlank c) : IsRemark [w ++ '-' :: '-' :: t]
  /-- A number sign before white space, another number sign or nothing. -/
  | numberSign {w t : Text} (hw : ∀ c ∈ w, isBlank c)
      (ht : ∀ c ∈ t.head?, isBlank c ∨ c = '#') : IsRemark [w ++ '#' :: t]
  /-- A block comment that is closed on its line. -/
  | enclosed {w t : Text} (hw : ∀ c ∈ w, isBlank c) (ht : ['*', '/'] <:+: t) :
      IsRemark [w ++ '/' :: '*' :: t]
  /-- A block comment that is closed on a later line. -/
  | block {w t last : Text} {m : List Text} (hw : ∀ c ∈ w, isBlank c)
      (ht : ¬ ['*', '/'] <:+: t) (hm : ∀ l ∈ m, ¬ ['*', '/'] <:+: l)
      (hlast : ['*', '/'] <:+: last) : IsRemark ((w ++ '/' :: '*' :: t) :: (m ++ [last]))

/-- Remarks as text, with a line feed behind each line. -/
def remarkText (remarks : List (List Text)) : Text := remarks.flatten.flatMap (· ++ ['\n'])

lemma containsSub_iff {needle t : Text} (hn : needle ≠ []) :
    containsSub needle t ↔ needle <:+: t := by
  rw [containsSub]
  cases h : beforeSub? needle t with
  | none => simpa using beforeSub?_eq_none h
  | some u =>
    obtain ⟨⟨v, rfl⟩, -⟩ := beforeSub?_eq_some hn h
    simp

lemma closes_trimEnd : containsSub ['*', '/'] (trimEnd t) = containsSub ['*', '/'] t := by
  rw [Bool.eq_iff_iff, containsSub_iff (by simp), containsSub_iff (by simp)]
  constructor
  · intro h
    obtain ⟨w, hw, -⟩ := exists_eq_trimEnd_append t
    rw [hw]
    exact h.trans (prefix_append _ w).isInfix
  · rintro ⟨x, y, rfl⟩
    have hslash : trimEnd ('/' :: y) = '/' :: trimEnd y := trimEnd_append_cons (by decide) [] y
    have hstar : trimEnd (x ++ '*' :: '/' :: y) = x ++ '*' :: '/' :: trimEnd y := by
      rw [trimEnd_append_cons (by decide), hslash]
    refine ⟨x, trimEnd y, ?_⟩
    rw [append_assoc, append_assoc]
    exact hstar.symm

lemma closes_trim : containsSub ['*', '/'] (trim t) = containsSub ['*', '/'] t := by
  rw [trim, closes_trimEnd, Bool.eq_iff_iff, containsSub_iff (by simp), containsSub_iff (by simp)]
  constructor
  · exact fun h => h.trans (dropWhile_suffix isBlank).isInfix
  · rintro ⟨x, y, rfl⟩
    refine ⟨trimStart x, y, ?_⟩
    rw [append_assoc, append_assoc]
    exact (trimStart_append_cons (by decide) x ('/' :: y)).symm

lemma trim_indented {w : Text} (hw : ∀ c ∈ w, isBlank c) {c : Char}
    (hc : isBlank c = false) (t : Text) : trim (w ++ c :: t) = c :: trimEnd t := by
  rw [trim_append_cons hc, trimStart_of_blank hw, nil_append]

lemma trim_indented₂ {w : Text} (hw : ∀ c ∈ w, isBlank c) {c d : Char}
    (hc : isBlank c = false) (hd : isBlank d = false) (t : Text) :
    trim (w ++ c :: d :: t) = c :: d :: trimEnd t := by
  rw [trim_indented hw hc]
  exact congrArg (c :: ·) (trimEnd_append_cons hd [] t)

lemma contentLinesFrom_remarkLine {l : Text} (hremark : isRemarkLine (trim l))
    (hclosed : isOpenBehind false l = false) (rest : List Text) :
    contentLinesFrom false (l :: rest) = contentLinesFrom false rest := by
  rw [contentLinesFrom_cons, hremark, hclosed]
  rfl

lemma contentLinesFrom_block {m : List Text} (hm : ∀ l ∈ m, ¬ ['*', '/'] <:+: l)
    {last : Text} (hlast : ['*', '/'] <:+: last) (rest : List Text) :
    contentLinesFrom true (m ++ last :: rest) = contentLinesFrom false rest := by
  induction m with
  | nil =>
    rw [nil_append, contentLinesFrom_cons, isOpenBehind, closes_trim,
      (containsSub_iff (by simp)).mpr hlast]
    rfl
  | cons l m ih =>
    rw [forall_mem_cons] at hm
    have hl : containsSub ['*', '/'] l = false :=
      Bool.eq_false_iff.mpr fun h => hm.1 ((containsSub_iff (by simp)).mp h)
    rw [cons_append, contentLinesFrom_cons, isOpenBehind, closes_trim, hl]
    exact ih hm.2

/-- **A remark** does not count, and behind it no comment is open. -/
lemma contentLinesFrom_remark {r : List Text} (hr : IsRemark r) (rest : List Text) :
    contentLinesFrom false (r ++ rest) = contentLinesFrom false rest := by
  cases hr with
  | @blank l h =>
    have htrim : trim l = [] := by
      rw [trim, trimStart_of_blank h]
      rfl
    apply contentLinesFrom_remarkLine
    · rw [htrim]
      rfl
    · rw [isOpenBehind, htrim]
      rfl
  | dashes hw =>
    have htrim := trim_indented₂ hw (c := '-') (d := '-') (by decide) (by decide)
    apply contentLinesFrom_remarkLine
    · rw [htrim]
      rfl
    · rw [isOpenBehind, htrim]
      rfl
  | @numberSign w t hw ht =>
    have htrim := trim_indented hw (c := '#') (by decide) t
    apply contentLinesFrom_remarkLine
    · have hhead : (trimEnd t).head?.all (fun c => isBlank c || c == '#') := by
        obtain ⟨v, hv, -⟩ := exists_eq_trimEnd_append t
        cases hend : trimEnd t with
        | nil => rfl
        | cons c u =>
          rw [hend] at hv
          simpa using ht c (by rw [hv]; rfl)
      rw [htrim, isRemarkLine, isHashComment, hhead]
      rfl
    · rw [isOpenBehind, htrim]
      rfl
  | @enclosed w t hw ht =>
    have htrim := trim_indented₂ hw (c := '/') (d := '*') (by decide) (by decide) t
    apply contentLinesFrom_remarkLine
    · rw [htrim]
      rfl
    · rw [isOpenBehind, htrim]
      have hcloses := (containsSub_iff (by simp)).mpr ht
      rw [← closes_trimEnd] at hcloses
      simp [hcloses]
  | @block w t last m hw ht hm hlast =>
    have htrim := trim_indented₂ hw (c := '/') (d := '*') (by decide) (by decide) t
    have hopen : isOpenBehind false (w ++ '/' :: '*' :: t) := by
      have hcloses : containsSub ['*', '/'] t = false :=
        Bool.eq_false_iff.mpr fun h => ht ((containsSub_iff (by simp)).mp h)
      rw [← closes_trimEnd] at hcloses
      rw [isOpenBehind, htrim]
      simp [hcloses]
    rw [cons_append, append_assoc, contentLinesFrom_cons, hopen, htrim]
    exact contentLinesFrom_block hm hlast rest

lemma contentLinesFrom_remarks {remarks : List (List Text)} (h : ∀ r ∈ remarks, IsRemark r)
    (rest : List Text) :
    contentLinesFrom false (remarks.flatten ++ rest) = contentLinesFrom false rest := by
  induction remarks with
  | nil => rfl
  | cons r remarks ih =>
    rw [forall_mem_cons] at h
    rw [flatten_cons, append_assoc, contentLinesFrom_remark h.1, ih h.2]

/-- **Remarks between lines do not count.** -/
lemma contentLines_insert {before rest : Text} {remarks : List (List Text)}
    (hopen : endsInComment before = false) (hremarks : ∀ r ∈ remarks, IsRemark r)
    (hfeed : ∀ r ∈ remarks, ∀ l ∈ r, '\n' ∉ l) :
    contentLines (before ++ '\n' :: (remarkText remarks ++ rest)) =
      contentLines (before ++ '\n' :: rest) := by
  have hlines : ∀ l ∈ remarks.flatten, '\n' ∉ l := by
    intro l hl
    obtain ⟨r, hr, hlr⟩ := mem_flatten.mp hl
    exact hfeed r hr l hlr
  rw [endsInComment_eq] at hopen
  rw [contentLines_eq, contentLines_eq, splitOnChar_append_sep (by rfl),
    splitOnChar_append_sep (by rfl), remarkText, splitOnChar_flatMap hlines,
    contentLinesFrom_append, contentLinesFrom_append false _ (splitOnChar _ rest), hopen,
    contentLinesFrom_remarks hremarks]

lemma contentLines_append_lineFeed : contentLines (t ++ ['\n']) = contentLines t := by
  rw [contentLines_eq, contentLines_eq, splitOnChar_append_sep (by rfl), contentLinesFrom_append]
  cases (splitOnChar (· == '\n') t).foldl isOpenBehind false <;> exact append_nil _

lemma endsInComment_append_lineFeed : endsInComment (t ++ ['\n']) = endsInComment t := by
  rw [endsInComment_eq, endsInComment_eq, splitOnChar_append_sep (by rfl), foldl_append]
  exact isOpenBehind_nil _

end Detect

open Detect

/-- **Remarks have no influence on the dialect.** At the start of a line where no block comment is
open, any remarks can be put into a text, whatever markers stand in them. Behind a last line that no
line feed ends, one is put before them. -/
theorem detectDialect_insert_remarks {before rest : Text} {remarks : List (List Text)}
    (hopen : endsInComment before = false) (hremarks : ∀ r ∈ remarks, IsRemark r)
    (hfeed : ∀ r ∈ remarks, ∀ l ∈ r, '\n' ∉ l) :
    ((∀ c ∈ before.getLast?, c = '\n') →
      detectDialect (before ++ (remarkText remarks ++ rest)) = detectDialect (before ++ rest)) ∧
    detectDialect (before ++ '\n' :: remarkText remarks) = detectDialect before := by
  constructor
  · intro hbefore
    have hlines : contentLines (before ++ (remarkText remarks ++ rest)) =
        contentLines (before ++ rest) := by
      rcases eq_nil_or_concat' before with rfl | ⟨a, c, rfl⟩
      · have hstart : contentLines ([] ++ '\n' :: (remarkText remarks ++ rest)) =
            contentLines ([] ++ '\n' :: rest) := contentLines_insert rfl hremarks hfeed
        rwa [contentLines_eq, contentLines_eq] at hstart ⊢
      · obtain rfl : c = '\n' := hbefore c getLast?_concat
        rw [endsInComment_append_lineFeed] at hopen
        rw [append_assoc, append_assoc]
        exact contentLines_insert hopen hremarks hfeed
    rw [detectDialect, hlines, detectDialect]
  · have hend : contentLines (before ++ '\n' :: (remarkText remarks ++ [])) =
        contentLines (before ++ '\n' :: []) := contentLines_insert hopen hremarks hfeed
    rw [append_nil, contentLines_append_lineFeed] at hend
    rw [detectDialect, hend, detectDialect]

/-- A comment of two lines, with markers of T-SQL in it, between two lines of PostgreSQL. -/
theorem detectDialect_insert_comment :
    (endsInComment "AS $$\n".toList = false ∧
      IsRemark ["/* GO".toList, "EXEC p */ GO".toList]) ∧
    detectDialect "AS $$\n/* GO\nEXEC p */ GO\n$$".toList = detectDialect "AS $$\n$$".toList := by
  have hremark : IsRemark ["/* GO".toList, "EXEC p */ GO".toList] :=
    .block (w := []) (t := " GO".toList) (m := []) (by simp) (by decide) (by simp)
      ⟨"EXEC p ".toList, " GO".toList, rfl⟩
  have hopen : endsInComment "AS $$\n".toList = false := by decide
  refine ⟨⟨hopen, hremark⟩, ?_⟩
  show detectDialect ("AS $$\n".toList ++
    (remarkText [["/* GO".toList, "EXEC p */ GO".toList]] ++ "$$".toList)) =
      detectDialect ("AS $$\n".toList ++ "$$".toList)
  exact (detectDialect_insert_remarks hopen (by simpa using hremark) (by decide)).1 (by simp)

end SqlOutline
