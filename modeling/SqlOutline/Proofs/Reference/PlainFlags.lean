import Mathlib.Order.Bounds.Basic
import SqlOutline.Proofs.Reference.DerivedTable

/-!
# Parentheses around a token

Whether a token stands in parentheses that hold no query is found in one pass with a stack.

## Main definitions

* `openBefore`, `openAround` — parentheses that are open at a token, by their positions alone.

## Main results

* `plainFlags_iff` — the flag of a token tells that the nearest of them holds no query.
-/

namespace SqlOutline.Harvest

open List Sql

/-- The parentheses that are open in front of the token at `i`: those opened there for which no
closing one has come that found them the nearest open ones. -/
def openBefore (ts : List Token) (i : Nat) : Set Nat :=
  {j | j < i ∧ ts[j]? = some (.symbol "(") ∧
    ∀ k < i, ts[k]? = some (.symbol ")") → ¬ IsGreatest (openBefore ts k) j}
termination_by i

/-- The parentheses around the token at `i`: they are opened before it and not closed there or
before. -/
def openAround (ts : List Token) (i : Nat) : Set Nat := {j ∈ openBefore ts (i + 1) | j < i}

/-- A query follows the token at `j`. -/
def QueryBehind (ts : List Token) (j : Nat) : Prop :=
  ∃ w : Word, ts[j + 1]? = some (.word w) ∧ w.quote = none ∧ w.upper ∈ ["SELECT", "WITH"]

variable {ts : List Token} {i j : Nat}

lemma startsWith_query_iff :
    startsWith ["SELECT", "WITH"] (ts.drop (j + 1)) ↔ QueryBehind ts j := by
  rw [startsWith, head?_drop, QueryBehind]
  cases ts[j + 1]? with
  | none => simp
  | some t => cases t <;> simp [isAny, Token.plainWord?, Word.isAny, apply_ite]

lemma mem_openAround_iff : j ∈ openAround ts i ↔
    j ∈ openBefore ts i ∧ ¬ (ts[i]? = some (.symbol ")") ∧ IsGreatest (openBefore ts i) j) := by
  have hmem (n : Nat) : j ∈ openBefore ts n ↔ j < n ∧ ts[j]? = some (.symbol "(") ∧
      ∀ k < n, ts[k]? = some (.symbol ")") → ¬ IsGreatest (openBefore ts k) j := by
    rw [openBefore]
    rfl
  have hopen : j ∈ openAround ts i ↔ j ∈ openBefore ts (i + 1) ∧ j < i := Iff.rfl
  rw [hopen, hmem, hmem, Nat.forall_lt_succ_right]
  constructor
  · rintro ⟨⟨-, hj, hbefore, hlast⟩, hlt⟩
    exact ⟨⟨hlt, hj, hbefore⟩, fun h => hlast h.1 h.2⟩
  · rintro ⟨⟨hlt, hj, hbefore⟩, hlast⟩
    exact ⟨⟨Nat.lt_succ_of_lt hlt, hj, hbefore, fun hclose h => hlast ⟨hclose, h⟩⟩, hlt⟩

lemma mem_openBefore_succ_iff : j ∈ openBefore ts (i + 1) ↔
    j ∈ openAround ts i ∨ j = i ∧ ts[i]? = some (.symbol "(") := by
  have hlt {n k : Nat} (h : k ∈ openBefore ts n) : k < n := by
    rw [openBefore] at h
    exact h.1
  constructor
  · intro h
    rcases Nat.lt_succ_iff_lt_or_eq.mp (hlt h) with hj | rfl
    · exact .inl ⟨h, hj⟩
    · rw [openBefore] at h
      exact .inr ⟨rfl, h.2.1⟩
  · rintro (h | ⟨rfl, hj⟩)
    · exact h.1
    · rw [openBefore]
      exact ⟨Nat.lt_succ_self j, hj, fun k hk _ h => absurd (hlt h.1) (by omega)⟩

lemma getElem?_symbol_iff {t : Token} (ht : ts[i]? = some t) (m : String) :
    ts[i]? = some (.symbol m) ↔ t.isSymbol m := by
  rw [ht, Option.some.injEq]
  cases t <;> simp [Token.isSymbol]

/-! ## The stack -/

/-- A list has the elements of a set, the greatest first. -/
structure Lists (js : List Nat) (s : Set Nat) : Prop where
  sorted : js.Pairwise (· > ·)
  mem_iff : ∀ j, j ∈ js ↔ j ∈ s

variable {js : List Nat} {s : Set Nat} {t : Token}

lemma Lists.isGreatest_iff (h : Lists js s) : IsGreatest s j ↔ js.head? = some j := by
  have hset : s = {k | k ∈ js} := Set.ext fun k => (h.mem_iff k).symm
  rw [hset]
  cases js with
  | nil => simp [IsGreatest]
  | cons a js =>
    have ha := (pairwise_cons.mp h.sorted).1
    have hgreatest : IsGreatest {k | k ∈ a :: js} a :=
      ⟨mem_cons_self, fun k hk => (mem_cons.mp hk).elim Nat.le_of_eq fun hk => (ha k hk).le⟩
    rw [head?_cons, Option.some.injEq]
    exact ⟨fun hj => hgreatest.unique hj, fun hj => hj ▸ hgreatest⟩

/-- What is left of a stack at a token. -/
def around (js : List Nat) (t : Token) : List Nat := if t.isSymbol ")" then js.tail else js

lemma Lists.around (h : Lists js (openBefore ts i)) (ht : ts[i]? = some t) :
    Lists (around js t) (openAround ts i) := by
  have hmem (j : Nat) : j ∈ openAround ts i ↔
      j ∈ js ∧ ¬ (t.isSymbol ")" ∧ js.head? = some j) := by
    rw [mem_openAround_iff, getElem?_symbol_iff ht, h.isGreatest_iff, h.mem_iff]
  unfold Harvest.around
  split_ifs with ht
  · refine ⟨h.sorted.tail, fun j => ?_⟩
    cases js with
    | nil => simp [hmem]
    | cons a js =>
      have ha := (pairwise_cons.mp h.sorted).1
      have hne : j ∈ js → a ≠ j := fun hj => (ha j hj).ne'
      simp [hmem, ht]
      tauto
  · exact ⟨h.sorted, fun j => by simp [hmem, ht]⟩

lemma Lists.behind (h : Lists js (openBefore ts i)) (ht : ts[i]? = some t) :
    Lists (if t.isSymbol "(" then i :: js else Harvest.around js t) (openBefore ts (i + 1)) := by
  have hopen := getElem?_symbol_iff ht "("
  have haround := h.around ht
  split_ifs with hsymbol
  · have hsame : Harvest.around js t = js := by
      obtain rfl : t = .symbol "(" := Option.some.inj (ht.symm.trans (hopen.mpr hsymbol))
      rfl
    rw [hsame] at haround
    refine ⟨haround.sorted.cons fun j hj => ((haround.mem_iff j).mp hj).2, fun j => ?_⟩
    rw [mem_openBefore_succ_iff, hopen, ← haround.mem_iff, mem_cons, or_comm]
    simp [hsymbol]
  · refine ⟨haround.sorted, fun j => ?_⟩
    rw [mem_openBefore_succ_iff, hopen, haround.mem_iff]
    simp [hsymbol]

def isQueryAt (ts : List Token) (j : Nat) : Bool := startsWith ["SELECT", "WITH"] (ts.drop (j + 1))

/-- **One token.** -/
lemma plainFlagsFrom_drop (ht : ts[i]? = some t) (js : List Nat) :
    plainFlagsFrom (js.map (isQueryAt ts)) (ts.drop i) =
      (around js t).head?.any (!isQueryAt ts ·) ::
        plainFlagsFrom ((if t.isSymbol "(" then i :: js else around js t).map (isQueryAt ts))
          (ts.drop (i + 1)) := by
  obtain ⟨hi, rfl⟩ := List.getElem?_eq_some_iff.mp ht
  rw [drop_eq_getElem_cons hi, plainFlagsFrom]
  have hclose : Token.isSymbol "(" ts[i] → Token.isSymbol ")" ts[i] = false := by
    cases ts[i] <;> simp +contextual [Token.isSymbol]
  have hhead (ks : List Nat) : (ks.map (isQueryAt ts)).head?.any (!·) =
      ks.head?.any (!isQueryAt ts ·) := by
    rw [head?_map, Option.any_map]
  unfold around
  split_ifs with hopen hclose'
  · rw [hclose hopen] at hclose'
    cases hclose'
  · rw [← hhead]
    rfl
  · rw [← hhead, map_tail]
  · rw [← hhead]

/-- **All tokens**, one after the other. -/
lemma getElem?_plainFlagsFrom (h : Lists js (openBefore ts i)) {m : Nat} (hm : i + m < ts.length) :
    (plainFlagsFrom (js.map (isQueryAt ts)) (ts.drop i))[m]? = some true ↔
      ∃ j, IsGreatest (openAround ts (i + m)) j ∧ ¬ QueryBehind ts j := by
  induction m generalizing i js with
  | zero =>
    rw [Nat.add_zero] at hm ⊢
    have ht := getElem?_eq_getElem hm
    rw [plainFlagsFrom_drop ht, getElem?_cons_zero, Option.some.injEq, Option.any_eq_true]
    simp only [(h.around ht).isGreatest_iff, Bool.not_eq_true', ← Bool.not_eq_true, isQueryAt,
      startsWith_query_iff]
  | succ m ih =>
    have ht := getElem?_eq_getElem (Nat.lt_of_le_of_lt (Nat.le_add_right i (m + 1)) hm)
    rw [plainFlagsFrom_drop ht, getElem?_cons_succ]
    have hflag := ih (h.behind ht) (by omega)
    rwa [Nat.add_right_comm, Nat.add_assoc] at hflag

/-- **Flags of parentheses.** The flag of a token is set if and only if there are parentheses around
it and the nearest of them hold no query: the word behind the one that opens them is not `SELECT` or
`WITH`, or it is in quotes. Parentheses may lack their partner; a closing one closes the nearest
that is open, and it does nothing if there is none.

**Proof sketch.** The stack lists the open parentheses, the nearest first. A token that opens or
closes one changes both alike. -/
theorem plainFlags_iff (ts : List Token) (i : Fin ts.length) :
    (plainFlags ts)[(i : Nat)]? = some true ↔
      ∃ j, IsGreatest (openAround ts i) j ∧ ¬ QueryBehind ts j := by
  have hnone : Lists [] (openBefore ts 0) := ⟨.nil, fun j => by rw [openBefore]; simp⟩
  have hflag := getElem?_plainFlagsFrom hnone (m := i) (by rw [Nat.zero_add]; exact i.isLt)
  rwa [Nat.zero_add] at hflag

end SqlOutline.Harvest
