import Mathlib.Data.List.Basic
import Mathlib.Tactic.SplitIfs
import SqlOutline.Definition.Convert
import SqlOutline.Proofs.Lexeme.TopLevel

/-!
# What lexemes and tokens have in common

Lexemes and tokens are cut by different rules. Of both, the readers of definitions look at words and
names, parentheses, commas, brackets and dots.

## Main definitions

* `Mark`, `Lexeme.mark`, `marksOf` — what is seen of a lexeme or of tokens.

## Main results

* `bracketed_eq` — lexemes in parentheses that close their own.
-/

namespace SqlOutline

open Option List Text Sql Lexeme

/-- What is seen of a lexeme or token. A word has the keyword that it spells, if all its letters are
ASCII letters, and the name that it is, unless that is blank. -/
inductive Mark where
  | word (keyword : String) (name : Option String)
  | quoted (name : Option String)
  /-- A parenthesis, a comma, a dot or an opening angle bracket. -/
  | symbol (c : Char)
  | other
  deriving Repr, DecidableEq

variable {k : String}

namespace Mark

def isSpelling (k : String) : Bool := !k.toList.isEmpty && k.toList.all fun c => !isWide c

def ofWord (upper : String) (name : Option String) : Mark :=
  .word (if isSpelling upper then upper else "") name

def punctuation : List Char := ['(', ')', ',', '.', '<']

def ofSymbol (c : Char) : Mark := if punctuation.contains c then .symbol c else .other

def isWord (m : Mark) (k : String) : Bool :=
  match m with
  | .word keyword _ => keyword == k
  | _ => false

def isAnyWord (m : Mark) (ks : List String) : Bool := ks.any m.isWord

def isName : Mark → Bool
  | .word _ _ | .quoted _ => true
  | _ => false

def name? : Mark → Option String
  | .word _ name | .quoted name => name
  | _ => none

lemma ne_empty_of_isSpelling (hk : isSpelling k) : "" ≠ k := by
  rintro rfl
  revert hk
  decide

lemma isWord_ofWord (hk : isSpelling k) (upper : String)
    (name : Option String) : (ofWord upper name).isWord k = (upper == k) := by
  by_cases h : isSpelling upper
  · simp only [isWord, ofWord, if_pos h]
  · have hne : upper ≠ k := fun heq => h (heq ▸ hk)
    simp only [isWord, ofWord, if_neg h, beq_eq_false_iff_ne.mpr hne,
      beq_eq_false_iff_ne.mpr (ne_empty_of_isSpelling hk)]

end Mark

/-- What is seen of a lexeme. -/
def Lexeme.mark (l : Lexeme) : Mark :=
  match l.kind with
  | .word => .ofWord l.upper l.plain?
  | .quotedIdent => .quoted l.plain?
  | .symbol =>
    match l.text with
    | [c] => .ofSymbol c
    | _ => .other
  | _ => .other

/-- What is seen of a token. An operator of several characters is as many symbols. -/
def Sql.Token.marks : Token → List Mark
  | .word w =>
    match w.quote with
    | none => [.ofWord w.keyword (Grammar.ofWord w).plain?]
    | some _ => [.quoted (Grammar.ofWord w).plain?]
  | .symbol s | .operator s =>
    match s.toList with
    | [] => [.other]
    | c :: t => (c :: t).map .ofSymbol
  | .gap => []
  | _ => [.other]

/-- What is seen of tokens. -/
def marksOf (ts : List Token) : List Mark := ts.flatMap Token.marks

@[simp]
lemma marksOf_nil : marksOf [] = [] := rfl

@[simp]
lemma marksOf_cons (t : Token) (ts : List Token) : marksOf (t :: ts) = t.marks ++ marksOf ts := rfl

@[simp]
lemma marksOf_append (x y : List Token) : marksOf (x ++ y) = marksOf x ++ marksOf y :=
  flatMap_append

/-! ## Lexemes by their marks -/

namespace Lexeme

variable (l : Lexeme)

lemma mark_of_not_isName (h : l.isName = false) :
    l.mark = .other ∨ ∃ c, c ∈ Mark.punctuation ∧ l.mark = .symbol c ∧ l.isSymbol c := by
  obtain ⟨kind, text, start⟩ := l
  cases kind <;> simp only [isName, beq_self_eq_true, Bool.or_true, Bool.true_or, reduceCtorEq] at h
  case symbol =>
    match text with
    | [c] =>
      by_cases hc : Mark.punctuation.contains c
      · refine .inr ⟨c, contains_iff_mem.mp hc, ?_, by simp [isSymbol]⟩
        simp only [mark, Mark.ofSymbol, if_pos hc]
      · refine .inl ?_
        simp only [mark, Mark.ofSymbol, if_neg hc]
    | [] => exact .inl rfl
    | _ :: _ :: _ => exact .inl rfl
  all_goals exact .inl rfl

lemma isWord_mark (hk : Mark.isSpelling k) : l.mark.isWord k = l.isWord k := by
  obtain ⟨kind, text, start⟩ := l
  cases kind
  case word => exact Mark.isWord_ofWord hk _ _
  case symbol =>
    rcases mark_of_not_isName ⟨.symbol, text, start⟩ rfl with h | ⟨c, -, h, -⟩ <;> rw [h] <;> rfl
  all_goals rfl

lemma isAnyWord_mark {ks : List String} (hks : ks.all Mark.isSpelling) :
    l.mark.isAnyWord ks = l.isAnyWord ks := by
  have hmark : ∀ k ∈ ks, l.mark.isWord k = l.isWord k := fun k hk =>
    l.isWord_mark (List.all_eq_true.mp hks k hk)
  have hany : l.isAnyWord ks ↔ ∃ k ∈ ks, l.isWord k := by
    simp [isAnyWord, isWord, and_comm]
  rw [Bool.eq_iff_iff, hany, Mark.isAnyWord, List.any_eq_true]
  exact ⟨fun ⟨k, hk, h⟩ => ⟨k, hk, hmark k hk ▸ h⟩,
    fun ⟨k, hk, h⟩ => ⟨k, hk, (hmark k hk).symm ▸ h⟩⟩

@[simp]
lemma isName_mark : l.mark.isName = l.isName := by
  obtain ⟨kind, text, start⟩ := l
  cases kind
  case symbol =>
    rcases mark_of_not_isName ⟨.symbol, text, start⟩ rfl with h | ⟨c, -, h, -⟩ <;> rw [h] <;> rfl
  all_goals rfl

lemma name?_mark (h : l.isName) : l.mark.name? = l.plain? := by
  obtain ⟨kind, text, start⟩ := l
  cases kind
  case word | quotedIdent => rfl
  all_goals cases h

lemma mark_eq_symbol_iff {c : Char} (hc : c ∈ Mark.punctuation) :
    l.mark = .symbol c ↔ l.isSymbol c := by
  obtain ⟨kind, text, start⟩ := l
  cases kind
  case symbol =>
    rcases mark_of_not_isName ⟨.symbol, text, start⟩ rfl with h | ⟨d, hd, h, hsymbol⟩
    · rw [h]
      refine iff_of_false (by simp) fun hsymbol => ?_
      obtain rfl : text = [c] := by simpa [isSymbol] using hsymbol
      simp only [mark, Mark.ofSymbol, contains_iff_mem.mpr hc, if_true] at h
      cases h
    · rw [h]
      obtain rfl : text = [d] := by simpa [isSymbol] using hsymbol
      simp [isSymbol]
  case word => simp [mark, isSymbol, Mark.ofWord]
  all_goals simp [mark, isSymbol]

end Lexeme

/-! ## Tokens by their marks -/

namespace Sql.Token

variable {t : Token}

lemma marks_ne_nil (h : t.isGap = false) : t.marks ≠ [] := by
  cases t with
  | gap => cases h
  | word w => cases hq : w.quote <;> simp [marks, hq]
  | symbol s | operator s => cases hs : s.toList <;> simp [marks, hs]
  | _ => simp [marks]

lemma marks_of_isKeyword (hk : Mark.isSpelling k) (h : t.isKeyword k) :
    ∃ m, t.marks = [m] ∧ m.isWord k := by
  cases t with
  | word w =>
    have hw : w.keyword = k := by simpa [isKeyword] using h
    cases hq : w.quote with
    | none =>
      refine ⟨.ofWord w.keyword (Grammar.ofWord w).plain?, by simp [marks, hq], ?_⟩
      simp [Mark.isWord_ofWord hk, hw]
    | some q =>
      rw [Word.keyword, hq, isSome_some, if_pos rfl] at hw
      exact absurd hw (Mark.ne_empty_of_isSpelling hk)
  | _ => cases h

lemma eq_of_isSymbol {s : String} (h : t.isSymbol s) : t = .symbol s := by
  cases t with
  | symbol s' => simpa [isSymbol] using h
  | _ => cases h

lemma isKeyword_of_marks {m : Mark} {ms : List Mark} (hk : Mark.isSpelling k)
    (h : t.marks = m :: ms) (hm : m.isWord k) : t.isKeyword k ∧ ms = [] := by
  have hsymbol : ∀ c : Char, (Mark.ofSymbol c).isWord k = false := fun c => by
    unfold Mark.ofSymbol
    split <;> rfl
  cases t with
  | word w =>
    cases hq : w.quote with
    | none =>
      simp only [marks, hq, cons.injEq] at h
      obtain ⟨rfl, rfl⟩ := h
      rw [Mark.isWord_ofWord hk] at hm
      exact ⟨hm, rfl⟩
    | some q =>
      simp only [marks, hq, cons.injEq] at h
      obtain ⟨rfl, -⟩ := h
      cases hm
  | symbol s | operator s =>
    cases hs : s.toList with
    | nil =>
      simp only [marks, hs, cons.injEq] at h
      obtain ⟨rfl, -⟩ := h
      cases hm
    | cons c cs =>
      simp only [marks, hs, map_cons, cons.injEq] at h
      obtain ⟨rfl, -⟩ := h
      rw [hsymbol] at hm
      cases hm
  | gap => cases h
  | _ =>
    simp only [marks, cons.injEq] at h
    obtain ⟨rfl, -⟩ := h
    cases hm

end Sql.Token

/-! ## Parentheses -/

/-- The depth of parentheses behind a mark; `none` if it closes nothing, or is a comma outside of
all parentheses where `commas` does not allow one. -/
def Mark.nesting? (commas : Bool) (depth : Nat) (m : Mark) : Option Nat :=
  if m = .symbol '(' then some (depth + 1)
  else if m = .symbol ')' then if depth = 0 then none else some (depth - 1)
  else if m = .symbol ',' ∧ depth = 0 ∧ commas = false then none
  else some depth

/-- The depth of parentheses behind marks. -/
def nesting? (commas : Bool) (depth : Nat) (ms : List Mark) : Option Nat :=
  ms.foldlM (Mark.nesting? commas) depth

section Nesting

variable {commas : Bool} {depth behind : Nat} {ms x y : List Mark}

@[simp]
lemma nesting?_nil : nesting? commas depth [] = some depth := rfl

lemma nesting?_cons (m : Mark) (ms : List Mark) : nesting? commas depth (m :: ms) =
      (m.nesting? commas depth).bind (nesting? commas · ms) := rfl

lemma nesting?_append (x y : List Mark) :
    nesting? commas depth (x ++ y) = (nesting? commas depth x).bind (nesting? commas · y) :=
  foldlM_append

lemma Mark.nesting?_succ {m : Mark} (h : m.nesting? true depth = some behind) :
    m.nesting? commas (depth + 1) = some (behind + 1) := by
  unfold Mark.nesting? at h ⊢
  split_ifs at h ⊢ <;> simp_all
  omega

lemma nesting?_true (h : nesting? false depth ms = some behind) :
    nesting? true depth ms = some behind := by
  induction ms generalizing depth with
  | nil => exact h
  | cons m ms ih =>
    obtain ⟨d, hd, h⟩ := bind_eq_some_iff.mp h
    have hstep : m.nesting? true depth = some d := by
      unfold Mark.nesting? at hd ⊢
      split_ifs at hd ⊢ <;> simp_all
    rw [nesting?_cons, hstep]
    exact ih h

end Nesting

section Groups

variable {depth behind : Nat} {ls : List Lexeme}

/-- A lexeme behind which the parentheses can still be closed. -/
lemma Lexeme.of_nesting? {commas : Bool} {l : Lexeme}
    (h : l.mark.nesting? commas depth = some behind) : behind = depthBehind depth l ∧
      (l.isSymbol ')' → 0 < depth) ∧
      (commas = false → ¬ (depth = 0 ∧ l.isSymbol ',')) := by
  simp only [Mark.nesting?, mark_eq_symbol_iff l (c := '(') (by decide),
    mark_eq_symbol_iff l (c := ')') (by decide), mark_eq_symbol_iff l (c := ',') (by decide)] at h
  have hopen (h : l.isSymbol '(') : l.isSymbol ')' = false ∧ l.isSymbol ',' = false :=
    ⟨l.isSymbol_eq_false h (by decide), l.isSymbol_eq_false h (by decide)⟩
  have hclose : l.isSymbol ')' → l.isSymbol ',' = false := (l.isSymbol_eq_false · (by decide))
  rw [depthBehind]
  grind

lemma closingFrom?_append (h : nesting? true depth (ls.map mark) = some behind)
    (rest : List Lexeme) : closingFrom? (depth + 1) (ls ++ rest) =
      (closingFrom? (behind + 1) rest).map (· + ls.length) := by
  induction ls generalizing depth with
  | nil =>
    obtain rfl := some.inj h
    simp
  | cons l ls ih =>
    obtain ⟨d, hd, h⟩ := bind_eq_some_iff.mp h
    obtain ⟨rfl, hclose, -⟩ := of_nesting? hd
    rw [cons_append, closingFrom?_cons hclose, ih h, Option.map_map]
    rfl

/-- **Lexemes in parentheses** that close their own are what stands between these. -/
lemma bracketed_eq {first last : Lexeme} (hfirst : first.isSymbol '(')
    (h : nesting? true 0 (ls.map mark) = some 0) (hlast : last.isSymbol ')')
    (rest : List Lexeme) : bracketed (first :: (ls ++ last :: rest)) = (ls, rest) := by
  have hopen : last.isSymbol '(' = false := isSymbol_eq_false hlast (by decide)
  have hclosing : closingFrom? 1 (last :: rest) = some 0 := by
    rw [closingFrom?, hopen, hlast]
    rfl
  have hmatch : matchingParen? (first :: (ls ++ last :: rest)) = some (ls.length + 1) := by
    rw [matchingParen?, closingFrom?, if_pos hfirst, closingFrom?_append h, hclosing]
    simp
  simp [bracketed, hmatch]

lemma itemsFrom_cons {l : Lexeme} (h : l.mark.nesting? false depth = some behind) :
    itemsFrom depth (l :: ls) = consItem l (itemsFrom behind ls) := by
  obtain ⟨rfl, -, hcomma⟩ := of_nesting? h
  rw [itemsFrom, if_neg (by simpa using hcomma rfl)]

lemma itemsFrom_append_comma (h : nesting? false depth (ls.map mark) = some 0)
    {comma : Lexeme} (hcomma : comma.isSymbol ',') (rest : List Lexeme) :
    itemsFrom depth (ls ++ comma :: rest) = ls :: itemsFrom 0 rest := by
  induction ls generalizing depth with
  | nil =>
    obtain rfl := some.inj h
    rw [nil_append, itemsFrom, hcomma]
    rfl
  | cons l ls ih =>
    obtain ⟨d, hd, h⟩ := bind_eq_some_iff.mp h
    rw [cons_append, itemsFrom_cons hd, ih h]
    rfl

lemma itemsFrom_eq_singleton (h : nesting? false depth (ls.map mark) = some 0) :
    itemsFrom depth ls = [ls] := by
  induction ls generalizing depth with
  | nil => rfl
  | cons l ls ih =>
    obtain ⟨d, hd, h⟩ := bind_eq_some_iff.mp h
    rw [itemsFrom_cons hd, ih h]
    rfl

end Groups

end SqlOutline
