import Mathlib.Order.Bounds.Basic
import Mathlib.Order.Interval.Set.Defs
import SqlOutline.Lexeme.Group

/-!
# Lists that are cut outside parentheses

Items end at commas, and chunks of a body at semicolons, that stand outside parentheses.

## Main definitions

* `CutAt`, `Stretches`, `Cuts` — separators, the stretches between them, and functions that cut.
* `StaysOpen`, `Balances` — every parenthesis has its partner.

## Main results

* `Cuts.exists_stretches` — the pieces of a list are its stretches.
* `splitTopLevel_partitions` — items and parentheses.
-/

namespace SqlOutline

open List

section Cut

variable {α : Type} {step : Nat → α → Nat} {sep : α → Bool} {depth m n i : Nat} {xs : List α}
  {f : Nat → List α → List (List α)} {cut cut' : Nat → Prop} {r : Nat × Nat}
  {rs : List (Nat × Nat)}

/-- A separator outside parentheses stands at `i`; `step` counts the parentheses that are open, of
which there are `depth` before the list. -/
def CutAt (step : Nat → α → Nat) (sep : α → Bool) (depth : Nat) (xs : List α) (i : Nat) : Prop :=
  xs[i]?.any sep ∧ (xs.take i).foldl step depth = 0

/-- Stretches of the positions below `n`, one behind the other with cuts between, that leave out the
cuts and nothing else. -/
structure Stretches (cut : Nat → Prop) (n : Nat) (rs : List (Nat × Nat)) : Prop where
  bounds : ∀ r ∈ rs, r.1 ≤ r.2 ∧ r.2 ≤ n
  sorted : rs.Pairwise (·.2 < ·.1)
  cut_iff : ∀ i < n, cut i ↔ ∀ r ∈ rs, i ∉ Set.Ico r.1 r.2

/-- What stands in a stretch of a list. -/
def stretch (xs : List α) (r : Nat × Nat) : List α := (xs.take r.2).drop r.1

/-- A function that cuts lists outside parentheses. -/
structure Cuts (step : Nat → α → Nat) (sep : α → Bool) (f : Nat → List α → List (List α)) :
    Prop where
  nil : ∀ d, f d [] = [[]]
  cut : ∀ {a} xs, sep a → f 0 (a :: xs) = [] :: f 0 xs ∧ step 0 a = 0
  keep : ∀ {d a xs p ps}, ¬ (d = 0 ∧ sep a) → f (step d a) xs = p :: ps →
    f d (a :: xs) = (a :: p) :: ps

lemma Stretches.cons (h : Stretches cut n ((0, m) :: rs)) (hsucc : ∀ i, cut' (i + 1) ↔ cut i) :
    let next := rs.map (Prod.map (· + 1) (· + 1))
    (cut' 0 → Stretches cut' (n + 1) ((0, 0) :: (1, m + 1) :: next)) ∧
      (¬ cut' 0 → Stretches cut' (n + 1) ((0, m + 1) :: next)) := by
  obtain ⟨hbounds, hsorted, hcut⟩ := h
  simp only [forall_mem_cons, pairwise_cons] at hbounds hsorted hcut
  constructor
  all_goals
    intro h0
    refine ⟨?_, ?_, fun i hi => ?_⟩
    · simp only [forall_mem_cons, forall_mem_map, Prod.map]
      grind
    · simp only [pairwise_cons, forall_mem_cons, forall_mem_map, pairwise_map, Prod.map]
      grind
    · simp only [forall_mem_cons, forall_mem_map, Prod.map, Set.mem_Ico]
      cases i with
      | zero => grind
      | succ i =>
        simp only [hsucc, hcut i (by omega), Set.mem_Ico]
        grind

/-- **The pieces of a list** are its stretches between the separators outside parentheses. -/
lemma Cuts.exists_stretches (hf : Cuts step sep f) (depth : Nat) (xs : List α) :
    ∃ m rs, Stretches (CutAt step sep depth xs) xs.length ((0, m) :: rs) ∧
      f depth xs = ((0, m) :: rs).map (stretch xs) := by
  induction xs generalizing depth with
  | nil => exact ⟨0, [], ⟨by simp, by simp, by simp⟩, hf.nil depth⟩
  | cons a xs ih =>
    by_cases hcut : depth = 0 ∧ sep a
    · obtain ⟨rfl, ha⟩ := hcut
      obtain ⟨m, rs, hrs, hpieces⟩ := ih 0
      obtain ⟨hxs, hstep⟩ := hf.cut xs ha
      refine ⟨0, _, (hrs.cons fun i => by simp [CutAt, hstep]).1 ⟨ha, rfl⟩, ?_⟩
      simp [hxs, hpieces, stretch]
    · obtain ⟨m, rs, hrs, hpieces⟩ := ih (step depth a)
      refine ⟨m + 1, _, (hrs.cons fun i => Iff.rfl).2 fun h => hcut h.symm, ?_⟩
      rw [hf.keep hcut hpieces]
      simp [stretch]

/-- A stretch has no separator outside its own parentheses, if those in front of it are closed. -/
lemma Stretches.not_cutAt (h : Stretches (CutAt step sep depth xs) xs.length rs) (hr : r ∈ rs)
    (hd : (xs.take r.1).foldl step depth = 0) : ¬ CutAt step sep 0 (stretch xs r) i := by
  rintro ⟨hsep, hdepth⟩
  have hi : r.1 + i < r.2 ∧ r.1 + i < xs.length := by
    by_contra hlt
    rw [stretch, getElem?_eq_none (by rw [length_drop, length_take]; omega)] at hsep
    cases hsep
  rw [stretch, getElem?_drop, getElem?_take_of_lt hi.1] at hsep
  rw [stretch, drop_take, take_take, min_eq_left (by omega)] at hdepth
  refine (h.cut_iff _ hi.2).mp ⟨hsep, ?_⟩ r hr ⟨Nat.le_add_right _ _, hi.1⟩
  rw [take_add, foldl_append, hd, hdepth]

end Cut

/-! ## Items -/

variable {depth : Nat} {l : Lexeme} {ls : List Lexeme}

lemma Lexeme.isSymbol_eq_false {c d : Char} (h : l.isSymbol c) (hne : d ≠ c) :
    l.isSymbol d = false := by
  simp only [isSymbol, Bool.and_eq_true, beq_iff_eq] at h
  simp [isSymbol, h.2, hne.symm]

lemma cuts_itemsFrom : Cuts depthBehind (·.isSymbol ',') itemsFrom where
  nil _ := rfl
  cut {l} ls h := by simp [itemsFrom, depthBehind, h, l.isSymbol_eq_false h]
  keep h hp := by
    rw [itemsFrom, if_neg (by simpa using h), hp]
    rfl

lemma exists_stretches_splitTopLevel (ls : List Lexeme) : ∃ rs,
    Stretches (CutAt depthBehind (·.isSymbol ',') 0 ls) ls.length rs ∧ (∀ r ∈ rs, r.1 < r.2) ∧
      splitTopLevel ls = rs.map (stretch ls) := by
  obtain ⟨m, rs, h, hitems⟩ := cuts_itemsFrom.exists_stretches 0 ls
  refine ⟨((0, m) :: rs).filter fun r => r.1 < r.2, ⟨?_, h.sorted.filter _, fun i hi => ?_⟩, ?_, ?_⟩
  · exact fun r hr => h.bounds r (mem_filter.mp hr).1
  · rw [h.cut_iff i hi]
    simp only [mem_filter, decide_eq_true_eq, Set.mem_Ico]
    grind
  · exact fun r hr => of_decide_eq_true (mem_filter.mp hr).2
  · rw [splitTopLevel, hitems, filter_map]
    refine congrArg _ (filter_congr fun r hr => ?_)
    have hlength : (stretch ls r).length = r.2 - r.1 := by simp [stretch, (h.bounds r hr).2]
    rw [Function.comp_apply, Bool.eq_iff_iff, Bool.not_eq_true', isEmpty_eq_false_iff,
      ← length_pos_iff, hlength, Nat.sub_pos_iff_lt, decide_eq_true_iff]

/-! ## Partners -/

def lparens (ls : List Lexeme) : Nat := ls.countP (·.isSymbol '(')

def rparens (ls : List Lexeme) : Nat := ls.countP (·.isSymbol ')')

/-- Nothing is closed that is not open, where `depth` parentheses are open in front. -/
def StaysOpen (depth : Nat) (ls : List Lexeme) : Prop :=
  ∀ n, rparens (ls.take n) ≤ depth + lparens (ls.take n)

/-- Every parenthesis has its partner, where `depth` are open in front. -/
def Balances (depth : Nat) (ls : List Lexeme) : Prop :=
  StaysOpen depth ls ∧ rparens ls = depth + lparens ls

lemma rparens_add_depthBehind (h : l.isSymbol ')' → 0 < depth) (ls : List Lexeme) :
    rparens (l :: ls) + (depthBehind depth l + lparens ls) =
      rparens ls + (depth + lparens (l :: ls)) := by
  have hboth : l.isSymbol '(' → l.isSymbol ')' = false := (l.isSymbol_eq_false · (by decide))
  simp only [rparens, lparens, countP_cons, depthBehind]
  grind

lemma staysOpen_cons : StaysOpen depth (l :: ls) ↔
    (l.isSymbol ')' → 0 < depth) ∧ StaysOpen (depthBehind depth l) ls := by
  have hone (h : StaysOpen depth (l :: ls)) (hl : l.isSymbol ')') : 0 < depth := by
    have := h 1
    grind [rparens, lparens, Lexeme.isSymbol]
  refine ⟨fun h => ⟨hone h, fun n => ?_⟩, fun h n => ?_⟩
  · have hnext := h (n + 1)
    have := rparens_add_depthBehind (hone h) (ls.take n)
    rw [take_succ_cons] at hnext
    omega
  · cases n with
    | zero => exact Nat.zero_le _
    | succ n =>
      have hnext := h.2 n
      have := rparens_add_depthBehind h.1 (ls.take n)
      rw [take_succ_cons]
      omega

lemma balances_nil : Balances depth [] ↔ depth = 0 := by
  simp [Balances, StaysOpen, rparens, lparens, eq_comm]

lemma balances_cons : Balances depth (l :: ls) ↔
    (l.isSymbol ')' → 0 < depth) ∧ Balances (depthBehind depth l) ls := by
  rw [Balances, Balances, staysOpen_cons, and_assoc, and_congr_right_iff]
  intro h
  have := rparens_add_depthBehind h ls
  grind

/-- **Items of balanced lexemes** are balanced. -/
lemma balances_itemsFrom (h : Balances depth ls) : ∃ p qs, itemsFrom depth ls = p :: qs ∧
    Balances depth p ∧ ∀ q ∈ qs, Balances 0 q := by
  induction ls generalizing depth with
  | nil => exact ⟨[], [], rfl, h, by simp⟩
  | cons l ls ih =>
    obtain ⟨hl, h⟩ := balances_cons.mp h
    obtain ⟨p, qs, hitems, hp, hqs⟩ := ih h
    by_cases hcut : depth = 0 ∧ l.isSymbol ','
    · obtain ⟨rfl, hcomma⟩ := hcut
      obtain ⟨hls, hstep⟩ := cuts_itemsFrom.cut ls hcomma
      rw [hstep] at hitems hp
      exact ⟨[], p :: qs, hls.trans (hitems ▸ rfl), balances_nil.mpr rfl,
        forall_mem_cons.mpr ⟨hp, hqs⟩⟩
    · exact ⟨l :: p, qs, cuts_itemsFrom.keep hcut hitems, balances_cons.mpr ⟨hl, hp⟩, hqs⟩

lemma closingFrom?_cons (h : l.isSymbol ')' → 0 < depth) :
    closingFrom? (depth + 1) (l :: ls) =
      (closingFrom? (depthBehind depth l + 1) ls).map (· + 1) := by
  rw [closingFrom?, depthBehind]
  split_ifs with hopen hclose hdepth
  · rfl
  · have := h hclose
    omega
  · rw [Nat.add_sub_cancel, Nat.sub_add_cancel (h hclose)]
  · rfl

/-- **The closing parenthesis** stands behind lexemes that balance. -/
lemma closingFrom?_spec (depth : Nat) (ls : List Lexeme) : (∀ c ∈ closingFrom? (depth + 1) ls,
      (∃ l, ls[c]? = some l ∧ l.isSymbol ')') ∧ Balances depth (ls.take c)) ∧
    (closingFrom? (depth + 1) ls = none → StaysOpen depth ls) := by
  induction ls generalizing depth with
  | nil => simp [closingFrom?, StaysOpen, rparens]
  | cons l ls ih =>
    by_cases h : l.isSymbol ')' → 0 < depth
    · obtain ⟨hsome, hnone⟩ := ih (depthBehind depth l)
      rw [closingFrom?_cons h]
      refine ⟨?_, fun hmap => staysOpen_cons.mpr ⟨h, hnone (Option.map_eq_none_iff.mp hmap)⟩⟩
      intro _ hmap
      obtain ⟨c, hc, rfl⟩ := Option.map_eq_some_iff.mp hmap
      exact ⟨(hsome c hc).1, balances_cons.mpr ⟨h, (hsome c hc).2⟩⟩
    · obtain ⟨hl, hdepth⟩ := Classical.not_imp.mp h
      obtain rfl : depth = 0 := by omega
      simp [closingFrom?, l.isSymbol_eq_false hl (d := '('), hl, balances_nil]

lemma matchingParen?_spec (hl : l.isSymbol '(') (ls : List Lexeme) :
    (∀ c ∈ matchingParen? (l :: ls), IsLeast {c | c < (l :: ls).length ∧
        rparens ((l :: ls).take (c + 1)) = lparens ((l :: ls).take (c + 1))} c ∧
      Balances 0 (bracketed (l :: ls)).1) ∧
    (matchingParen? (l :: ls) = none →
      ∀ c, rparens ((l :: ls).take (c + 1)) ≠ lparens ((l :: ls).take (c + 1))) := by
  have hmatch : matchingParen? (l :: ls) = (closingFrom? 1 ls).map (· + 1) := if_pos hl
  -- behind the first parenthesis one more has to be closed than opened
  have hfirst (n : Nat) : rparens ((l :: ls).take (n + 1)) = rparens (ls.take n) ∧
      lparens ((l :: ls).take (n + 1)) = lparens (ls.take n) + 1 := by
    simp [rparens, lparens, hl, l.isSymbol_eq_false hl (d := ')')]
  simp only [hfirst]
  obtain ⟨hsome, hnone⟩ := closingFrom?_spec 0 ls
  constructor
  · intro _ hmap
    obtain ⟨c, hc, rfl⟩ := Option.map_eq_some_iff.mp (hmatch ▸ hmap)
    obtain ⟨⟨last, hget, hlast⟩, hopen, hclosed⟩ := hsome c hc
    have hend : rparens (ls.take (c + 1)) = rparens (ls.take c) + 1 ∧
        lparens (ls.take (c + 1)) = lparens (ls.take c) := by
      simp [take_add_one, rparens, lparens, hget, hlast, last.isSymbol_eq_false hlast (d := '(')]
    refine ⟨⟨⟨?_, by omega⟩, fun n hn => ?_⟩, ?_⟩
    · simpa using (List.getElem?_eq_some_iff.mp hget).1
    · by_contra hlt
      have hle := hopen n
      rw [take_take, min_eq_left (by omega)] at hle
      have := hn.2
      omega
    · simpa [bracketed, Option.mem_def.mp hmap] using ⟨hopen, hclosed⟩
  · intro hmap n
    have := hnone (Option.map_eq_none_iff.mp (hmatch ▸ hmap)) n
    omega

/-- **Items and parentheses.** The items of a list are its stretches between the commas outside
parentheses that are not empty. A parenthesis is closed by the first one up to which as many are
closed as opened, and the items between the two are balanced. -/
theorem splitTopLevel_partitions (ls : List Lexeme) :
    (∃ rs, Stretches (CutAt depthBehind (·.isSymbol ',') 0 ls) ls.length rs ∧
      (∀ r ∈ rs, r.1 < r.2) ∧ splitTopLevel ls = rs.map (stretch ls)) ∧
    ∀ k, ls[k]?.any (·.isSymbol '(') = true →
      let group := ls.drop k
      let ends :=
        {c | c < group.length ∧ rparens (group.take (c + 1)) = lparens (group.take (c + 1))}
      (∀ c, matchingParen? group = some c ↔ IsLeast ends c) ∧
      (matchingParen? group = none ↔ ends = ∅) ∧
      (matchingParen? group ≠ none →
        ∀ item ∈ splitTopLevel (bracketed group).1, Balances 0 item) := by
  refine ⟨exists_stretches_splitTopLevel ls, fun k hk => ?_⟩
  obtain ⟨l, hget, hl⟩ := (Option.any_eq_true _ _).mp hk
  obtain ⟨hlt, rfl⟩ := List.getElem?_eq_some_iff.mp hget
  rw [drop_eq_getElem_cons hlt]
  intro group ends
  obtain ⟨hsome, hnone⟩ := matchingParen?_spec hl (ls.drop (k + 1))
  cases hmatch : matchingParen? group with
  | none =>
    have hempty : ends = ∅ := Set.eq_empty_of_forall_notMem fun c hc => hnone hmatch c hc.2
    simp [hempty, IsLeast]
  | some c =>
    obtain ⟨hleast, hinside⟩ := hsome c hmatch
    have hends : ends.Nonempty := ⟨c, hleast.1⟩
    refine ⟨fun d => ?_, by simp [hends.ne_empty], fun _ item hitem => ?_⟩
    · exact ⟨fun h => Option.some.inj h ▸ hleast, fun h => congrArg some (hleast.unique h)⟩
    · obtain ⟨p, qs, hitems, hp, hqs⟩ := balances_itemsFrom hinside
      have hmem := (mem_filter.mp hitem).1
      rw [hitems] at hmem
      exact forall_mem_cons.mpr ⟨hp, hqs⟩ item hmem

/-- A list in parentheses, of which the second item is one too. -/
theorem splitTopLevel_partitions_nested :
    let ls : List Lexeme := [⟨.symbol, ['('], 0⟩, ⟨.word, ['a'], 1⟩, ⟨.symbol, [','], 2⟩,
      ⟨.symbol, ['('], 3⟩, ⟨.word, ['b'], 4⟩, ⟨.symbol, [','], 5⟩, ⟨.word, ['c'], 6⟩,
      ⟨.symbol, [')'], 7⟩, ⟨.symbol, [')'], 8⟩]
    ls[0]?.any (·.isSymbol '(') = true ∧ matchingParen? ls ≠ none ∧
      (splitTopLevel (bracketed ls).1).map length = [1, 5] ∧
      ∀ item ∈ splitTopLevel (bracketed ls).1, Balances 0 item :=
  ⟨rfl, by decide, by decide, ((splitTopLevel_partitions _).2 0 rfl).2.2 (by decide)⟩

end SqlOutline
