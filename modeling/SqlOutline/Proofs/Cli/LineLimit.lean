import Mathlib.Data.List.Basic
import SqlOutline.Cli.Discovery

/-!
# The limit on lines

Lines are counted as the pieces between line feeds, so behind a last line feed one more piece is
counted, which is no line.

## Main definitions

* `fileLines`, `Terminated` — the lines of a file, and files whose last line is ended.

## Main results

* `lineCount_eq` — what is counted as lines.
* `mem_collectFiles?_iff` — which files are kept.
-/

namespace SqlOutline

open List Text

/-- The lines of a file: the pieces that a line feed ends, and a last piece that is not empty. -/
def fileLines : List UInt8 → List (List UInt8)
  | [] => []
  | b :: bytes =>
    if b = 10 then [] :: fileLines bytes
    else
      match fileLines bytes with
      | [] => [[b]]
      | line :: lines => (b :: line) :: lines

/-- Nothing stands behind the last line feed of a file. -/
def Terminated (bytes : List UInt8) : Prop := bytes.getLast?.getD 10 = 10

instance (bytes : List UInt8) : Decidable (Terminated bytes) :=
  inferInstanceAs (Decidable (bytes.getLast?.getD 10 = 10))

lemma fileLines_eq_nil_iff {bytes : List UInt8} : fileLines bytes = [] ↔ bytes = [] := by
  cases bytes with
  | nil => exact iff_of_true rfl rfl
  | cons b bytes =>
    refine iff_of_false ?_ (cons_ne_nil b bytes)
    unfold fileLines
    split
    · exact cons_ne_nil _ _
    · split <;> exact cons_ne_nil _ _

/-- **The pieces between line feeds** are the lines, and an empty one behind a last line feed. -/
lemma lineCount_eq (bytes : ByteArray) : lineCount bytes =
    (fileLines bytes.data.toList).length + if Terminated bytes.data.toList then 1 else 0 := by
  rw [lineCount]
  induction bytes.data.toList with
  | nil => rfl
  | cons b bytes ih =>
    have hends : bytes ≠ [] → (Terminated (b :: bytes) ↔ Terminated bytes) := by
      intro hne
      unfold Terminated
      rw [getLast?_cons, getLast?_eq_some_getLast hne]
      rfl
    rw [count_cons, fileLines]
    by_cases hb : b = 10
    · have hlast : Terminated (b :: bytes) ↔ Terminated bytes := by
        by_cases hne : bytes = []
        · simp [Terminated, hne, hb]
        · exact hends hne
      rw [if_pos (beq_iff_eq.mpr hb), if_pos hb, length_cons, if_congr hlast rfl rfl]
      omega
    · rw [if_neg hb, if_neg (by simpa using hb)]
      by_cases hne : bytes = []
      · simp [hne, fileLines, Terminated, hb]
      · obtain ⟨line, lines, hlines⟩ := exists_cons_of_ne_nil (mt fileLines_eq_nil_iff.mp hne)
        simp only [hlines, length_cons, hends hne] at ih ⊢
        omega

/-! ## Files that are kept -/

variable {d : Disk} {cwd place : Place} {input : Text} {f : SourceFile} {bytes : ByteArray}

lemma mem_of_collectFiles? (hplace : d.resolve? cwd input = some place) (exclude : List Text)
    (limit : Nat) : ∃ files, collectFiles? d cwd input exclude limit = some files ∧ ∀ f, f ∈ files ↔
      f ∈ candidateFiles d input place ∧ isExcluded exclude f.name = false ∧
        ((d.file? f.place).all (withinLineLimit limit)) := by
  unfold collectFiles?
  rw [hplace]
  refine ⟨_, rfl, fun f => ?_⟩
  rw [mem_eraseDups, mem_mergeSort, mem_filter, Bool.and_eq_true, Bool.not_eq_true']

/-- **Which files are kept.** Of the files that an input stands for, one that can be read and is not
excluded is kept if and only if it has at most as many lines as the limit, where a file that is
empty or ends with a line feed counts one more. So the limit is that on lines except for such a file
with exactly as many lines as the limit, which is left out. -/
theorem mem_collectFiles?_iff (hplace : d.resolve? cwd input = some place)
    (hf : f ∈ candidateFiles d input place) (hread : d.file? f.place = some (.ok bytes))
    (exclude : List Text) (hexclude : isExcluded exclude f.name = false) (limit : Nat) :
    ∃ files, collectFiles? d cwd input exclude limit = some files ∧
      let lines := (fileLines bytes.data.toList).length
      (f ∈ files ↔ if Terminated bytes.data.toList then lines < limit else lines ≤ limit) ∧
      ((f ∈ files ↔ lines ≤ limit) ↔ ¬ (Terminated bytes.data.toList ∧ lines = limit)) := by
  obtain ⟨files, hfiles, hmem⟩ := mem_of_collectFiles? hplace exclude limit
  have hkept : f ∈ files ↔ lineCount bytes ≤ limit := by
    rw [hmem, hread]
    simp [hf, hexclude, withinLineLimit]
  refine ⟨files, hfiles, ?_⟩
  rw [hkept, lineCount_eq]
  dsimp only
  split_ifs with hends
  · simp only [hends, true_and]
    omega
  · simp [hends]

/-- One line that a line feed ends, and two lines of which the second is not ended. -/
def lineFiles : Disk where
  files := [(["db".toList, "a.sql".toList], .ok ⟨#[59, 10]⟩),
    (["db".toList, "b.sql".toList], .ok ⟨#[59, 10, 59]⟩)]

/-- A file with as many lines as the limit, the last of which is not ended, is kept. -/
theorem mem_collectFiles?_iff_open :
    lineFiles.resolve? [] "db".toList = some ["db".toList] ∧
      (⟨"db/b.sql".toList, ["db".toList, "b.sql".toList]⟩ : SourceFile) ∈
        candidateFiles lineFiles "db".toList ["db".toList] ∧
      ¬ Terminated [59, 10, 59] ∧ (fileLines [59, 10, 59]).length = 2 ∧
      ∃ files, collectFiles? lineFiles [] "db".toList ["*/a*".toList] 2 = some files ∧
        ⟨"db/b.sql".toList, ["db".toList, "b.sql".toList]⟩ ∈ files := by
  have hplace : lineFiles.resolve? [] "db".toList = some ["db".toList] := by decide
  have hf : (⟨"db/b.sql".toList, ["db".toList, "b.sql".toList]⟩ : SourceFile) ∈
      candidateFiles lineFiles "db".toList ["db".toList] := by decide
  obtain ⟨files, hfiles, hmem, -⟩ :=
    mem_collectFiles?_iff hplace hf rfl ["*/a*".toList] (by decide) 2
  exact ⟨hplace, hf, by decide, by decide, files, hfiles, hmem.mpr (by decide)⟩

/-- **A file with as many lines as the limit is left out** if a line feed ends the last one. -/
theorem collectFiles?_full_file :
    (fileLines [59, 10]).length = 1 ∧
      collectFiles? lineFiles [] "db/a.sql".toList [] 1 = some [] := by
  decide +kernel

end SqlOutline
