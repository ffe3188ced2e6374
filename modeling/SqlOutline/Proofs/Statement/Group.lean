import SqlOutline.Proofs.Lexeme.Coverage
import SqlOutline.Statement.Split

/-!
# Statements as groups of lexemes

A statement is a group of lexemes, whose text follows from the offsets of the first and the last.

## Main definitions

* `Progress`, `step`, `groups` — what the splitter knows, what a lexeme changes, and all groups.

## Main results

* `splitFrom_eq_groups` — statements are texts of groups.
* `grouping` — every lexeme joins a group or is a separator.
-/

namespace SqlOutline

open Bool List Text

/-! ## Groups -/

def groupStart (g : List Lexeme) : Nat := (g.head?.map (·.start)).getD 0

def groupStop (g : List Lexeme) : Nat := (g.getLast?.map (·.stop)).getD 0

def Statement.ofGroup (source : Text) (g : List Lexeme) : Statement :=
  ⟨groupStart g, slice (groupStart g) (groupStop g) source⟩

def groupExtent (g : List Lexeme) : Option (Nat × Nat) :=
  if g = [] then none else some (groupStart g, groupStop g)

lemma groupExtent_concat (g : List Lexeme) (l : Lexeme) :
    groupExtent (g ++ [l]) = some (((groupExtent g).map (·.1)).getD l.start, l.stop) := by
  cases g with
  | nil => rfl
  | cons m g =>
    have hstop : groupStop (m :: g ++ [l]) = l.stop := by
      rw [groupStop, getLast?_concat]
      rfl
    rw [groupExtent, if_neg (by simp), hstop]
    rfl

/-! ## The splitter -/

namespace Splitter

variable (s : Splitter) (before : Option Lexeme) (l : Lexeme) (after : Option Lexeme)

@[simp]
lemma extent_observeHeader (i : Nat) : (s.observeHeader i l after).extent = s.extent := by
  unfold observeHeader
  split_ifs <;> rfl

@[simp]
lemma extent_observeParen : (s.observeParen l).extent = s.extent := by
  unfold observeParen
  split_ifs <;> rfl

@[simp]
lemma extent_observeBlock (m : BlockMark) : (s.observeBlock m).extent = s.extent := by
  cases m with
  | opens => rfl
  | closes =>
    unfold observeBlock
    dsimp only
    split_ifs <;> rfl
  | none => rfl

@[simp]
lemma extent_observeBodyWord : (s.observeBodyWord before l after).extent = s.extent := by
  unfold observeBodyWord
  split_ifs <;> rfl

@[simp]
lemma extent_observeDeclare (i : Nat) : (s.observeDeclare i l after).extent = s.extent := by
  unfold observeDeclare
  split_ifs <;> rfl

lemma extent_observe :
    (s.observe before l after).extent = some ((s.extent.map (·.1)).getD l.start, l.stop) := by
  unfold observe
  dsimp only
  rw [extent_observeDeclare, extent_observeBodyWord, extent_observeBlock, extent_observeParen]
  split_ifs
  · rw [extent_observeHeader]
  · rfl

end Splitter

/-- What the splitter knows between two lexemes: what is known about the statement being read and
its lexemes, whether a delimiter other than the semicolon is in force, and the lexeme before. -/
structure Progress where
  splitter : Splitter := {}
  custom : Bool := false
  before : Option Lexeme := none
  current : List Lexeme := []

variable {p : Progress}

namespace Progress

/-- Whether a lexeme ends the statement being read. -/
def ends (p : Progress) (l : Lexeme) : Bool :=
  l.isBoundary || (l.isSymbol ';' && !p.custom && p.splitter.canSplit)

/-- Whether a delimiter other than the semicolon is in force behind a lexeme. -/
def customBehind (p : Progress) (l : Lexeme) : Bool :=
  if l.kind = .directive then ((directiveDelimiter? l.text).map (· != [';'])).getD p.custom
  else p.custom

/-- What is known behind a lexeme. One that ends a statement leaves nothing of it. -/
def step (p : Progress) (l : Lexeme) (after : Option Lexeme) : Progress :=
  if p.ends l then { custom := p.customBehind l, before := some l }
  else
    { p with
      splitter := p.splitter.observe p.before l after
      before := some l
      current := p.current ++ [l] }

def finished (p : Progress) : List (List Lexeme) := if p.current = [] then [] else [p.current]

def closed (p : Progress) (l : Lexeme) : List (List Lexeme) :=
  if p.ends l then p.finished else []

/-- The groups formed from a place on. -/
def groups (p : Progress) : List Lexeme → List (List Lexeme)
  | [] => p.finished
  | l :: ls => p.closed l ++ (p.step l ls.head?).groups ls

def Fits (p : Progress) : Prop := p.splitter.extent = groupExtent p.current

lemma Fits.step (h : p.Fits) (l : Lexeme) (after : Option Lexeme) : (p.step l after).Fits := by
  unfold Progress.step
  split_ifs
  · rfl
  · unfold Fits at h ⊢
    rw [Splitter.extent_observe, h, groupExtent_concat]

lemma flush_eq (h : p.Fits) (source : Text) :
    p.splitter.flush source = p.finished.map (Statement.ofGroup source) := by
  unfold Fits groupExtent at h
  unfold Splitter.flush finished
  rw [h]
  split_ifs
  · rfl
  · rfl

lemma splitFrom_cons (source : Text) (p : Progress) (l : Lexeme) (ls : List Lexeme) :
    splitFrom source p.splitter p.custom p.before (l :: ls) =
      (if p.ends l then p.splitter.flush source else []) ++
        splitFrom source (p.step l ls.head?).splitter (p.step l ls.head?).custom
          (p.step l ls.head?).before ls := by
  rw [splitFrom]
  split
  · next hk =>
    have hends : p.ends l := by rw [ends, Lexeme.isBoundary, hk]; rfl
    rw [if_pos hends, step, if_pos hends, customBehind, if_pos hk]
  · next hk =>
    have hends : p.ends l := by rw [ends, Lexeme.isBoundary, hk]; rfl
    rw [if_pos hends, step, if_pos hends, customBehind, if_neg (by rw [hk]; decide)]
  · next h₁ h₂ =>
    have hkind : l.isBoundary = false := by
      simp only [Lexeme.isBoundary, or_eq_false_iff, beq_eq_false_iff_ne]
      exact ⟨h₂, h₁⟩
    have hends : p.ends l = (l.isSymbol ';' && !p.custom && p.splitter.canSplit) := by
      rw [ends, hkind, Bool.false_or]
    rw [← hends]
    by_cases h : p.ends l
    · rw [if_pos h, if_pos h, step, if_pos h, customBehind, if_neg h₁]
    · rw [if_neg h, if_neg h, step, if_neg h]
      rfl

/-- **Statements are texts of groups**: from every place on, the splitter gives the texts of the
groups it forms. -/
lemma splitFrom_eq_groups (source : Text) (h : p.Fits) (ls : List Lexeme) :
    splitFrom source p.splitter p.custom p.before ls =
      (p.groups ls).map (Statement.ofGroup source) := by
  induction ls generalizing p with
  | nil =>
    rw [splitFrom, groups]
    exact flush_eq h source
  | cons l ls ih =>
    rw [splitFrom_cons, groups, map_append, ih (h.step l ls.head?), closed, flush_eq h source]
    split_ifs <;> rfl

end Progress

lemma splitStatements_eq_groups (source : Text) : splitStatements source =
      (Progress.groups {} (scanScript source)).map (Statement.ofGroup source) :=
  Progress.splitFrom_eq_groups source (p := {}) rfl _

/-! ## Groups and separators -/

def Lexeme.isSeparator (l : Lexeme) : Bool := l.isBoundary || l.isSymbol ';'

/-- Lexemes cut into groups and separators. No group is empty, and none has a directive or a
delimiter inside. -/
inductive Grouping : List Lexeme → List (List Lexeme) → Prop
  | nil : Grouping [] []
  | separator {l : Lexeme} {ls : List Lexeme} {gs : List (List Lexeme)}
      (hl : l.isSeparator) (h : Grouping ls gs) : Grouping (l :: ls) gs
  | group {g ls : List Lexeme} {gs : List (List Lexeme)} (hne : g ≠ [])
      (hg : ∀ l ∈ g, l.isBoundary = false) (h : Grouping ls gs) : Grouping (g ++ ls) (g :: gs)

namespace Progress

lemma isSeparator_of_ends {l : Lexeme} (h : p.ends l) : l.isSeparator := by
  unfold ends at h
  unfold Lexeme.isSeparator
  rw [or_eq_true] at h ⊢
  rcases h with h | h
  · exact Or.inl h
  · rw [Bool.and_assoc, and_eq_true] at h
    exact Or.inr h.1

lemma isBoundary_of_not_ends {l : Lexeme} (h : p.ends l = false) : l.isBoundary = false := by
  unfold ends at h
  rw [or_eq_false_iff] at h
  exact h.1

lemma grouping_finished (hp : ∀ l ∈ p.current, l.isBoundary = false)
    {ls : List Lexeme} {gs : List (List Lexeme)} (h : Grouping ls gs) :
    Grouping (p.current ++ ls) (p.finished ++ gs) := by
  unfold finished
  split_ifs with hc
  · rwa [hc]
  · exact .group hc hp h

/-- **Every lexeme joins a group or is a separator.**

**Proof sketch.** Induction on the lexemes, with the lexemes of the statement being read in front of
those to come. A lexeme that ends the statement cuts them off as a group and is a separator itself.
Any other lexeme moves from the lexemes to come to those read. -/
lemma grouping (hp : ∀ l ∈ p.current, l.isBoundary = false) (ls : List Lexeme) :
    Grouping (p.current ++ ls) (p.groups ls) := by
  induction ls generalizing p with
  | nil => simpa [groups] using grouping_finished hp .nil
  | cons l ls ih =>
    rw [groups, closed]
    by_cases h : p.ends l
    · have hcurrent : (p.step l ls.head?).current = [] := by
        rw [step, if_pos h]
      rw [if_pos h]
      refine grouping_finished hp (.separator (isSeparator_of_ends h) ?_)
      have hrest := ih (p := p.step l ls.head?) (by rw [hcurrent]; simp)
      rwa [hcurrent, nil_append] at hrest
    · have hcurrent : (p.step l ls.head?).current = p.current ++ [l] := by
        rw [step, if_neg h]
      rw [if_neg h, nil_append, append_cons, ← hcurrent]
      apply ih
      rw [hcurrent]
      intro m hm
      rcases mem_append.mp hm with hm | hm
      · exact hp m hm
      · rw [mem_singleton.mp hm]
        exact isBoundary_of_not_ends (not_eq_true _ ▸ h)

end Progress

lemma grouping_scanScript (source : Text) :
    Grouping (scanScript source) (Progress.groups {} (scanScript source)) :=
  Progress.grouping (p := {}) (by simp) _

end SqlOutline
