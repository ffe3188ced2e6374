import SqlOutline.Proofs.Definition.Mark
import SqlOutline.Proofs.Definition.Table

/-!
# The constraints that marks show

A column is read from its lexemes by looking for the words with which constraints start. Where a
name stands, or inside parentheses, such words mean something else.

## Main definitions

* `isQuiet` — marks in which no such word stands there.
* `Shows` — marks that lead from one place to another and show constraints.

## Main results

* `labelsIn_eq` — quiet marks show what their parts show.
* `readColumn?_eq` — a column is read with the constraints that its marks show.
-/

namespace SqlOutline

open Option Bool List Text Sql Mark

/-! ## Labels -/

/-- The constraint on a column that starts with a mark, where another mark may stand behind it. -/
def Mark.label? (m : Mark) (next : Option Mark) : Option ConstraintLabel :=
  if m.isWord "NOT" && next.any (·.isWord "NULL") then some .notNull
  else if m.isWord "UNIQUE" then some .unique
  else if m.isWord "PRIMARY" && next.any (·.isWord "KEY") then some .primaryKey
  else if m.isWord "REFERENCES" then some .foreignKey
  else none

/-- The constraints on a column that marks show. -/
def labelsIn : List Mark → List ConstraintLabel
  | [] => []
  | m :: ms => (m.label? ms.head?).toList ++ labelsIn ms

def Mark.introducers : List String := ["CONSTRAINT", "COLLATE", "SET", "REFERENCES"]

def Mark.introduces (m : Mark) : Bool :=
  m = .symbol '.' || m = .symbol '<' || m.isAnyWord introducers

def Mark.depthBehind (m : Mark) (depth : Nat) : Nat :=
  if m = .symbol '(' then depth + 1 else if m = .symbol ')' then depth - 1 else depth

/-- Whether no constraint is shown where a name stands or in parentheses; `named` says whether a
name stands first, and `depth` how many parentheses are open. -/
def isQuiet (named : Bool) (depth : Nat) : List Mark → Bool
  | [] => true
  | m :: ms =>
    ((m.label? ms.head?).isNone || (!named && depth == 0)) &&
      isQuiet m.introduces (m.depthBehind depth) ms

/-- Whether no constraint is shown, whatever follows. -/
def isSilent : List Mark → Bool
  | [] => true
  | m :: ms =>
    (m.label? ms.head?).isNone && (!ms.isEmpty || !m.isAnyWord ["NOT", "PRIMARY"]) && isSilent ms

namespace Mark

variable {m : Mark} {k : String}

lemma isWord_iff : m.isWord k = true ↔ ∃ name, m = .word k name := by
  cases m <;> simp [isWord]

def starters : List String := ["NOT", "UNIQUE", "PRIMARY", "REFERENCES"]

lemma label?_eq_none (h : m.isAnyWord starters = false) (next : Option Mark) :
    m.label? next = none := by
  simp only [isAnyWord, starters, any_cons, any_nil, Bool.or_false, or_eq_false_iff] at h
  simp [label?, h]

lemma label?_eq_label? (h : m.isAnyWord ["NOT", "PRIMARY"] = false) (next other : Option Mark) :
    m.label? next = m.label? other := by
  simp only [isAnyWord, any_cons, any_nil, Bool.or_false, or_eq_false_iff] at h
  simp [label?, h]

lemma depthBehind_eq {commas : Bool} {depth behind : Nat}
    (h : m.nesting? commas depth = some behind) : m.depthBehind depth = behind := by
  unfold nesting? at h
  unfold depthBehind
  split_ifs at h ⊢ <;> simp_all

end Mark

section Scan

variable {commas named : Bool} {depth behind : Nat} {ms rest : List Mark}

lemma isQuiet_of_append (hn : nesting? commas depth ms = some behind)
    (h : isQuiet named depth (ms ++ rest) = true) :
    ∃ named', isQuiet named' behind rest = true := by
  induction ms generalizing named depth with
  | nil =>
    obtain rfl := some.inj hn
    exact ⟨named, h⟩
  | cons m ms ih =>
    obtain ⟨d, hd, hn⟩ := bind_eq_some_iff.mp hn
    rw [cons_append, isQuiet, depthBehind_eq hd, and_eq_true] at h
    exact ih hn h.2

lemma labelsIn_append_of_isSilent (h : isSilent ms = true) :
    labelsIn (ms ++ rest) = labelsIn rest := by
  induction ms with
  | nil => rfl
  | cons m ms ih =>
    simp only [isSilent, and_eq_true, isNone_iff_eq_none] at h
    obtain ⟨⟨hlabel, hlast⟩, h⟩ := h
    have hnone : m.label? (ms ++ rest).head? = none := by
      cases ms with
      | nil =>
        have hm : m.isAnyWord ["NOT", "PRIMARY"] = false := by simpa using hlast
        rw [label?_eq_label? hm _ none]
        exact hlabel
      | cons next ms => exact hlabel
    rw [cons_append, labelsIn, hnone, ih h]
    rfl

end Scan

/-! ## Places -/

/-- A place in marks. -/
structure Site where
  /-- A name stands there. -/
  named : Bool := false
  /-- So many parentheses are open. -/
  depth : Nat := 0

/-- Marks lead from a place to another. If they are watched and quiet, they show the given
constraints on the way. -/
structure Shows (watched : Bool) (p q : Site) (ms : List Mark) (labels : List ConstraintLabel) :
    Prop where
  nesting : nesting? false p.depth ms = some q.depth
  shown : watched = true → ∀ named rest, (p.named = true → named = true) →
    isQuiet named p.depth (ms ++ rest) = true →
      labelsIn (ms ++ rest) = labels ++ labelsIn rest ∧
        ∃ named', (q.named = true → named' = true) ∧ isQuiet named' q.depth rest = true

namespace Shows

variable {watched : Bool} {p q r : Site} {x y : List Mark} {k l : List ConstraintLabel} {m : Mark}
  {behind : Nat}

lemma refl (watched : Bool) (p : Site) : Shows watched p p [] [] :=
  ⟨rfl, fun _ named _ hnamed h => ⟨rfl, named, hnamed, h⟩⟩

lemma forget (h : Shows watched p q x l) : Shows watched p ⟨false, q.depth⟩ x l where
  nesting := h.nesting
  shown hw named rest hnamed hquiet := by
    obtain ⟨hlabels, named', -, hrest⟩ := h.shown hw named rest hnamed hquiet
    exact ⟨hlabels, named', by simp, hrest⟩

/-- **Parts are put together.** -/
lemma append (hx : Shows watched p q x k) (hy : Shows watched q r y l) :
    Shows watched p r (x ++ y) (k ++ l) where
  nesting := by
    rw [nesting?_append, hx.nesting]
    exact hy.nesting
  shown hw named rest hnamed hquiet := by
    rw [append_assoc] at hquiet ⊢
    obtain ⟨hk, named', hnamed', hquiet'⟩ := hx.shown hw named (y ++ rest) hnamed hquiet
    obtain ⟨hl, hrest⟩ := hy.shown hw named' rest hnamed' hquiet'
    exact ⟨by rw [hk, hl, append_assoc], hrest⟩

lemma of_mark (hn : m.nesting? false p.depth = some behind)
    (hl : watched = true → ∀ named rest, (p.named = true → named = true) →
      isQuiet named p.depth (m :: rest) = true → (m.label? rest.head?).toList = l) :
    Shows watched p ⟨m.introduces, behind⟩ [m] l where
  nesting := by
    rw [nesting?_cons, hn]
    rfl
  shown hw named rest hnamed hquiet := by
    have hlabel := hl hw named rest hnamed hquiet
    rw [singleton_append, isQuiet, depthBehind_eq hn, and_eq_true] at hquiet
    refine ⟨?_, m.introduces, id, hquiet.2⟩
    rw [singleton_append, labelsIn, hlabel]

lemma of_not_starter (hn : m.nesting? false p.depth = some behind)
    (hm : m.isAnyWord starters = false) : Shows watched p ⟨m.introduces, behind⟩ [m] [] :=
  of_mark hn fun _ _ _ _ _ => by rw [label?_eq_none hm]; rfl

lemma of_safe (hn : m.nesting? false p.depth = some behind)
    (hp : watched = true → p.named = true ∨ 0 < p.depth) :
    Shows watched p ⟨m.introduces, behind⟩ [m] [] := by
  refine of_mark hn fun hw named rest hnamed hquiet => ?_
  rw [isQuiet, and_eq_true, or_eq_true, isNone_iff_eq_none] at hquiet
  have hnone : m.label? rest.head? = none := by
    refine hquiet.1.resolve_right fun hfree => ?_
    rw [and_eq_true, not_eq_true', beq_iff_eq] at hfree
    rcases hp hw with hp | hp
    · exact absurd (hnamed hp) (by simp [hfree.1])
    · omega
  rw [hnone]
  rfl

lemma of_pair {n : Mark} (hm : m.nesting? false p.depth = some p.depth)
    (hn : n.nesting? false p.depth = some p.depth) (hstart : n.isAnyWord starters = false) :
    Shows watched p ⟨n.introduces, p.depth⟩ [m, n] (m.label? (some n)).toList where
  nesting := by simp [nesting?_cons, hm, hn]
  shown _ named rest _ hquiet := by
    simp only [cons_append, nil_append, isQuiet, depthBehind_eq hm,
      depthBehind_eq hn, and_eq_true] at hquiet
    refine ⟨?_, n.introduces, id, hquiet.2.2⟩
    simp [labelsIn, label?_eq_none hstart]

lemma of_isSilent (hn : nesting? false p.depth x = some p.depth) (hx : isSilent x = true) :
    Shows watched p ⟨false, p.depth⟩ x [] where
  nesting := hn
  shown _ named rest _ hquiet := by
    obtain ⟨named', hrest⟩ := isQuiet_of_append hn hquiet
    exact ⟨labelsIn_append_of_isSilent hx, named', by simp, hrest⟩

lemma of_nesting {depth : Nat} (hn : nesting? true depth x = some behind) (named : Bool) :
    Shows watched ⟨named, depth + 1⟩ ⟨false, behind + 1⟩ x [] := by
  induction x generalizing depth named with
  | nil =>
    obtain rfl := some.inj hn
    exact (refl watched _).forget
  | cons m x ih =>
    obtain ⟨d, hd, hn⟩ := bind_eq_some_iff.mp hn
    have hfirst : Shows watched ⟨named, depth + 1⟩ ⟨m.introduces, d + 1⟩ [m] [] :=
      of_safe (nesting?_succ hd) fun _ => .inr (Nat.succ_pos depth)
    exact hfirst.append (ih hn m.introduces)

/-- **Quiet marks show what their parts show.** -/
lemma labelsIn_eq (h : Shows true p q x l) (hquiet : isQuiet p.named p.depth x = true) :
    labelsIn x = l := by
  have hall := (h.shown rfl p.named [] id (by rwa [append_nil])).1
  simpa [labelsIn] using hall

end Shows

/-! ## Columns -/

def Column.constrain (c : Column) : ConstraintLabel → Column
  | .notNull => c.forbidNull
  | label => c.addLabel label

lemma fst_readColumnTail (source : Text) (column : Column) (key : Option ForeignKey)
    (ls : List Lexeme) : (readColumnTail source column key ls).1 =
      (labelsIn (ls.map Lexeme.mark)).foldl Column.constrain column := by
  induction ls generalizing column key with
  | nil => rfl
  | cons l ls ih =>
    have hnext (k : String) (hk : isSpelling k = true) :
        (ls.map Lexeme.mark).head?.any (·.isWord k) = ls.head?.any (·.isWord k) := by
      cases ls with
      | nil => rfl
      | cons next ls => exact next.isWord_mark hk
    rw [readColumnTail, map_cons, labelsIn, label?]
    simp only [l.isWord_mark (k := "NOT") (by decide), l.isWord_mark (k := "UNIQUE") (by decide),
      l.isWord_mark (k := "PRIMARY") (by decide), l.isWord_mark (k := "REFERENCES") (by decide),
      hnext "NULL" (by decide), hnext "KEY" (by decide)]
    split_ifs <;> rw [ih] <;> rfl

lemma labelsIn_dropWhile (ls : List Lexeme) :
    labelsIn ((ls.dropWhile (!·.isAnyWord columnTailWords)).map Lexeme.mark) =
      labelsIn (ls.map Lexeme.mark) := by
  induction ls with
  | nil => rfl
  | cons l ls ih =>
    by_cases h : l.isAnyWord columnTailWords = true
    · rw [dropWhile_cons_of_neg (by simp [h])]
    · rw [dropWhile_cons_of_pos (by simp [h]), ih]
      have hm : l.mark.isAnyWord starters = false := by
        have hsub : ∀ k ∈ starters, k ∈ columnTailWords := by decide
        rw [l.isAnyWord_mark (by decide), eq_false_iff]
        refine fun hstart => h ?_
        simp only [Lexeme.isAnyWord, and_eq_true, contains_iff_mem] at hstart ⊢
        exact ⟨hstart.1, hsub _ hstart.2⟩
      rw [map_cons, labelsIn, label?_eq_none hm]
      rfl

/-- The type of a column as it is spelled, from behind its name to the first word that ends a
type. -/
def ownType? (source : Text) (item : List Lexeme) : Option String :=
  spanType? source (item.tail.takeWhile fun l => !l.isAnyWord columnTailWords)

/-- **A column** has the name of its first lexeme, its type and the constraints that the marks of
the others show. -/
lemma readColumn?_eq (source : Text) {first : Lexeme} {name : String} (hfirst : first.isName = true)
    (hname : first.plain? = some name) (rest : List Lexeme) :
    ∃ key, readColumn? source (first :: rest) =
      some ((labelsIn (rest.map Lexeme.mark)).foldl Column.constrain
        { name, dataType := ownType? source (first :: rest) }, key) := by
  rw [readColumn?_cons, if_pos hfirst, hname, ← labelsIn_dropWhile rest]
  simp only [map_some, ← fst_readColumnTail source _ none]
  exact ⟨_, rfl⟩

end SqlOutline
