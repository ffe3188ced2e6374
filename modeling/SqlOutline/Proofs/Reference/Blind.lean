import SqlOutline.Proofs.Body.Union
import SqlOutline.Proofs.Reference.Steps

/-!
# Runs that do not see what follows

A run over two lists is a run over the first and then one over the second, if no step in the first
list sees what stands behind it. That is so in front of a semicolon, or of two behind `TOP`.

## Main definitions

* `Blind` — steps in front of two lists that do the same.
* `isMark` — operators and marks that are walls.

## Main results

* `run_append`, `run_plainFlags_append` — a run over two lists.
* `step_congr_before` — how far a step depends on the token before it.
* `harvest_semicolons` — harvesting what stands on both sides of two semicolons.
-/

namespace SqlOutline.Harvest

open List Sql Body Token

variable {f flags : List Bool} {words : List String} {before b b' : Option Token}
  {x p a q ts y z : List Token} {t h : Token} {rules : Rules} {st : State} {w : Word}

/-! ## Parentheses along a list -/

lemma length_plainFlagsFrom (stack : List Bool) (ts : List Token) :
    (plainFlagsFrom stack ts).length = ts.length := by
  induction ts generalizing stack with
  | nil => rfl
  | cons t ts ih =>
    unfold plainFlagsFrom
    dsimp only
    split_ifs <;> rw [length_cons, length_cons, ih]

lemma plainFlagsFrom_append {stack : List Bool}
    (h : x.foldl depthAfter stack.length = 0) (y : List Token) :
    plainFlagsFrom stack (x ++ y) = plainFlagsFrom stack x ++ plainFlagsFrom [] y := by
  induction x generalizing stack with
  | nil =>
    have hstack : stack = [] := length_eq_zero_iff.mp h
    rw [hstack]
    rfl
  | cons t x ih =>
    rw [foldl_cons, depthAfter] at h
    rw [cons_append, plainFlagsFrom, plainFlagsFrom]
    dsimp only
    split_ifs at h ⊢
    · have hfront : startsWith ["SELECT", "WITH"] (x ++ y) = startsWith ["SELECT", "WITH"] x := by
        cases x with
        | nil => exact absurd h (Nat.succ_ne_zero _)
        | cons u x => rfl
      rw [hfront, ih (by rwa [length_cons]), cons_append]
    · rw [ih (by rwa [length_tail]), cons_append]
    · rw [ih h, cons_append]

lemma plainFlags_append (h : ClosesParens x) (y : List Token) :
    plainFlags (x ++ y) = plainFlags x ++ plainFlags y := by
  have hdepth : x.foldl depthAfter ([] : List Bool).length = 0 := h
  exact plainFlagsFrom_append hdepth y

lemma length_plainFlags (ts : List Token) : (plainFlags ts).length = ts.length :=
  length_plainFlagsFrom [] ts

/-! ## Runs over two lists -/

/-- No step in the tokens `s` behind `a` can tell whether `y` or `z` follows them. -/
def Blind (rules : Rules) (a s y z : List Token) : Prop :=
  ∀ (st : State) (plain : Bool) (b : List Token) (t : Token) (x : List Token), s = b ++ t :: x →
    step rules st (a ++ b).getLast? plain t (x ++ y) =
      step rules st (a ++ b).getLast? plain t (x ++ z)

namespace Blind

variable {rules : Rules} {a s s' y z : List Token}

lemma nil : Blind rules a [] y z := by
  intro st plain b t x hs
  simp at hs

lemma singleton (h : ∀ (st : State) (plain : Bool),
    step rules st a.getLast? plain t y = step rules st a.getLast? plain t z) :
    Blind rules a [t] y z := by
  intro st plain b u x hs
  obtain ⟨rfl, rfl, rfl⟩ : b = [] ∧ u = t ∧ x = [] := by
    rcases singleton_eq_append_iff.mp hs with ⟨rfl, hcons⟩ | ⟨-, hcons⟩
    · obtain ⟨rfl, rfl⟩ := cons.inj hcons
      exact ⟨rfl, rfl, rfl⟩
    · cases hcons
  rw [append_nil]
  exact h st plain

lemma append (h : Blind rules a s (s' ++ y) (s' ++ z)) (h' : Blind rules (a ++ s) s' y z) :
    Blind rules a (s ++ s') y z := by
  intro st plain b t x hs
  rcases append_eq_append_iff.mp hs with ⟨c, rfl, hc⟩ | ⟨c, rfl, hc⟩
  · rw [← append_assoc]
    exact h' st plain c t x hc
  · cases c with
    | nil =>
      rw [nil_append] at hc
      have hstep := h' st plain [] t x hc.symm
      simpa using hstep
    | cons u c =>
      obtain ⟨rfl, hx⟩ := cons.inj hc
      have hx : x = c ++ s' := hx
      rw [hx, append_assoc, append_assoc]
      exact h st plain b t c rfl

lemma drop (h : Blind rules a (s ++ s') y z) : Blind rules (a ++ s) s' y z := by
  intro st plain b t x hs
  rw [append_assoc]
  exact h st plain (s ++ b) t x (by rw [hs, append_assoc])

end Blind

lemma mem_getLast?_of_eq_append {b : List Token} {u : Token} (hp : p = b ++ t :: x)
    (hu : u ∈ x.getLast?) : u ∈ p.getLast? := by
  rw [Option.mem_def] at hu ⊢
  rw [hp, getLast?_append, getLast?_cons, hu]
  rfl

/-- **A run over two lists** of which the first is blind goes on behind it as if it had ended there.

**Proof sketch.** Induction on the tokens of the first list that are left. A step reads none of the
second list, so what is read with it is the front of what is left. -/
lemma run_append (hblind : Blind rules a x q [])
    (hlast : ∀ t ∈ x.getLast?, isAny ["TOP"] t = false) (st : State)
    (hf : f.length = x.length) (g : List Bool) : run rules st a.getLast? (f ++ g) (x ++ q) =
      run rules (run rules st a.getLast? f x) (a ++ x).getLast? g q := by
  induction hn : x.length using Nat.strongRecOn generalizing a x st f with
  | ind n ih =>
    cases x with
    | nil =>
      rw [length_eq_zero_iff.mp hf, append_nil, run]
      rfl
    | cons t x =>
      obtain ⟨b, f, rfl⟩ : ∃ b f', f = b :: f' :=
        exists_cons_of_length_pos (by rw [hf]; exact Nat.succ_pos _)
      have hlast' : ∀ u ∈ x.getLast?, isAny ["TOP"] u = false :=
        fun u hu => hlast u (mem_getLast?_of_eq_append (b := []) rfl hu)
      have hstep : step rules st a.getLast? b t (x ++ q) = step rules st a.getLast? b t x := by
        simpa using hblind st b [] t x rfl
      have hle := snd_step_le rules st a.getLast? b t x hlast'
      rw [cons_append, cons_append, run, run]
      simp only [headD_cons, hstep]
      generalize step rules st a.getLast? b t x = next at hle ⊢
      obtain ⟨st', k⟩ := next
      dsimp only at hle ⊢
      have hbefore : some ((x.take k).getLast?.getD t) = (a ++ t :: x.take k).getLast? := by
        rw [getLast?_append, getLast?_cons]
        rfl
      have hsplit : a ++ t :: x = a ++ t :: x.take k ++ x.drop k := by
        rw [append_assoc, cons_append, take_append_drop]
      rw [take_append_of_le_length hle, drop_append_of_le_length hle, hbefore,
        drop_succ_cons, drop_succ_cons]
      rw [length_cons, length_cons] at hf
      rw [drop_append_of_le_length (by omega), hsplit]
      refine ih (x.drop k).length ?_ ?_ ?_ _ ?_ rfl
      · rw [← hn, length_drop, length_cons]
        omega
      · refine Blind.drop (s := t :: x.take k) ?_
        rwa [cons_append, take_append_drop]
      · exact fun u hu => hlast' u (mem_getLast?_of_drop hu)
      · rw [length_drop, length_drop]
        omega

lemma run_plainFlags_append (hp : ClosesParens p)
    (hblind : Blind rules [] p q []) (hlast : ∀ t ∈ p.getLast?, isAny ["TOP"] t = false)
    (st : State) : run rules st none (plainFlags (p ++ q)) (p ++ q) =
      run rules (run rules st none (plainFlags p) p) p.getLast? (plainFlags q) q := by
  rw [plainFlags_append hp]
  exact run_append (a := []) hblind hlast st (length_plainFlags p) (plainFlags q)

@[simp]
lemma run_nil (rules : Rules) (st : State) (before : Option Token) (flags : List Bool) :
    run rules st before flags [] = st := by
  rw [run]

lemma run_cons (rules : Rules) (st : State) (before : Option Token) (flags : List Bool) (t : Token)
    (ts : List Token) : run rules st before flags (t :: ts) =
      let next := step rules st before (flags.headD false) t ts
      run rules next.1 (some ((ts.take next.2).getLast?.getD t)) (flags.drop (next.2 + 1))
        (ts.drop next.2) := by
  rw [run]

lemma run_semicolon (rules : Rules) (st : State) (before : Option Token) (flags : List Bool)
    (ts : List Token) : run rules st before flags (.symbol ";" :: ts) =
      run rules { st with inMerge := false } (some (.symbol ";")) (flags.drop 1) ts := by
  rw [run]
  rfl

lemma run_congr_before (h : ∀ t x plain, ts = t :: x →
      step rules st b plain t x = step rules st b' plain t x) :
    run rules st b flags ts = run rules st b' flags ts := by
  cases ts with
  | nil => rw [run, run]
  | cons t ts => rw [run, run, h t ts _ rfl]

/-! ## Walls -/

section

variable (ht : t.isWord = false) (ts : List Token)

include ht

lemma isAny_of_not_isWord (words : List String) : isAny words t = false := by
  cases t with
  | word w => cases ht
  | _ => rfl

lemma relation?_of_not_isWord : relation? (t :: ts) = none := by
  cases t with
  | word w => cases ht
  | _ => rfl

lemma chain?_of_not_isWord : chain? (t :: ts) = none := by
  rw [chain?, chainParts_of_not_isWord ht]

lemma resultLength_of_not_isWord : resultLength (t :: ts) = 0 := by
  cases t with
  | word w => cases ht
  | _ => rfl

lemma cte_of_not_isWord (c : Collector) : cte c (t :: ts) = c := by
  cases t with
  | word w => cases ht
  | _ => rfl

lemma aliasWidth_of_not_isWord : aliasWidth (t :: ts) = 0 := by
  cases t with
  | word w => cases ht
  | _ => rfl

lemma execute_of_not_isWord (c : Collector) : execute c (t :: ts) = (c, 0) := by
  have hfirst (words : List String) : startsWith words (t :: ts) = false :=
    isAny_of_not_isWord ht words
  rw [execute_eq, resultLength_of_not_isWord ht, drop_zero, chain?_of_not_isWord ht]
  simp [hfirst]

end

def isMark (t : Token) : Bool :=
  !t.isWord && !any ["(", ".", "@", ","] (t.isSymbol ·)

section Mark

variable {h : Token} (hmark : isMark h)

include hmark

lemma isWord_of_isMark : h.isWord = false := by
  simp only [isMark, Bool.and_eq_true, Bool.not_eq_true'] at hmark
  exact hmark.1

lemma wall_of_isMark (y : List Token) : Wall (h :: y) where
  marks := by
    simp only [isMark, Bool.and_eq_true, Bool.not_eq_true', any_eq_false] at hmark
    intro m hm
    have hm : h.isSymbol m = false := by simpa using hmark.2 m hm
    exact hm
  words := isAny_of_not_isWord (isWord_of_isMark hmark) _
  relation := relation?_of_not_isWord (isWord_of_isMark hmark) y

lemma sameWall_of_isMark (hchain : h.isSymbol "=" → chain? y = chain? z) :
    SameWall (h :: y) (h :: z) where
  left := wall_of_isMark hmark y
  right := wall_of_isMark hmark z
  isWord := rfl
  ends := rfl
  chain := by
    rw [chain?_of_not_isWord (isWord_of_isMark hmark),
      chain?_of_not_isWord (isWord_of_isMark hmark)]
  execute := fun c => by
    rw [execute_of_not_isWord (isWord_of_isMark hmark),
      execute_of_not_isWord (isWord_of_isMark hmark)]
  assigns := rfl
  assigned := hchain
  cte := fun c => by
    rw [cte_of_not_isWord (isWord_of_isMark hmark), cte_of_not_isWord (isWord_of_isMark hmark)]
  defines := by
    have hfirst (w : List Token) : startsWith ["AS"] (h :: w) = false :=
      isAny_of_not_isWord (isWord_of_isMark hmark) _
    rw [hfirst, hfirst]
    rfl

end Mark

lemma wall_nil : Wall [] where
  marks := fun _ _ => rfl
  words := rfl
  relation := rfl

lemma sameWall_semicolon (y : List Token) : SameWall (.symbol ";" :: y) [] where
  left := wall_of_isMark (by decide) y
  right := wall_nil
  isWord := rfl
  ends := rfl
  chain := by
    rw [chain?_of_not_isWord (by rfl)]
    simp [chain?, chainParts]
  execute := fun c => by
    rw [execute_of_not_isWord (by rfl), execute_eq]
    simp [startsWith, resultLength, chain?, chainParts]
  assigns := rfl
  assigned := fun hassigns => by cases hassigns
  cte := fun c => by rw [cte_of_not_isWord (by rfl)]; rfl
  defines := rfl

/-! ## Semicolons -/

lemma step_semicolon (hclosed : Closed x)
    (htop : TopFree x (.symbol ";" :: y)) (rules : Rules) (st : State) (before : Option Token)
    (plain : Bool) :
    step rules st before plain t (x ++ .symbol ";" :: y) = step rules st before plain t x := by
  have hword : (symbol ";" :: y).head?.any isWord = false := rfl
  have hstep := (sameWall_semicolon y).step_append (t := t) hclosed (fun _ _ _ => hword) htop
    (fun _ _ _ => rfl)
    (fun _ => ⟨aliasWidth_of_not_isWord rfl y, rfl, fun _ _ _ => hword, fun _ _ _ => rfl⟩)
    rules st before plain
  rwa [append_nil] at hstep

lemma closed_of_eq_append (hp : ClosesParens p) (h : p = a ++ x) : Closed x := by
  subst h
  exact (closed_of_depth hp).of_append

lemma closesParens_concat (hp : ClosesParens p)
    (hopen : t.isSymbol "(" = false) : ClosesParens (p ++ [t]) := by
  have hdepth : p.foldl depthAfter 0 = 0 := hp
  rw [ClosesParens, foldl_append, hdepth]
  simp [depthAfter, hopen]

/-- With a semicolon behind them, tokens give what they give alone. -/
lemma collector_run_semicolon (hp : ClosesParens p) (rules : Rules)
    (hx : p = a ++ x) (st : State) (before : Option Token) (hf : f.length = x.length) (b : Bool) :
    (run rules st before (f ++ [b]) (x ++ [.symbol ";"])).collector =
      (run rules st before f x).collector := by
  induction hn : x.length using Nat.strongRecOn generalizing a x st before f with
  | ind n ih =>
    cases x with
    | nil =>
      rw [nil_append, run_semicolon, run_nil, run_nil]
    | cons t x =>
      obtain ⟨d, f, rfl⟩ : ∃ d f', f = d :: f' :=
        exists_cons_of_length_pos (by rw [hf]; exact Nat.succ_pos _)
      have hclosed : Closed x := closed_of_eq_append hp (a := a ++ [t]) (by simpa using hx)
      have hstep := step_semicolon (t := t) (y := []) hclosed (fun _ _ _ => rfl) rules st before d
      rw [cons_append, cons_append, run, run]
      simp only [headD_cons, hstep]
      generalize step rules st before d t x = next
      obtain ⟨st', k⟩ := next
      dsimp only
      rw [length_cons, length_cons] at hf
      rw [drop_succ_cons, drop_succ_cons]
      by_cases hk : k ≤ x.length
      · rw [take_append_of_le_length hk, drop_append_of_le_length hk,
          drop_append_of_le_length (by omega)]
        refine ih (x.drop k).length ?_ (a := a ++ t :: x.take k) ?_ _ _ ?_ rfl
        · rw [← hn, length_drop, length_cons]
          omega
        · rw [hx, append_assoc, cons_append, take_append_drop]
        · rw [length_drop, length_drop]
          omega
      · have hlong : (x ++ [symbol ";"]).length ≤ k := by
          rw [length_append, length_singleton]
          omega
        have hlong' : x.length ≤ k := by omega
        rw [drop_eq_nil_of_le hlong, drop_eq_nil_of_le hlong', run_nil, run_nil]

lemma call_congr_before (h : startsBehind b = startsBehind b')
    (c : Collector) (t : Token) (ts : List Token) : call rules c b t ts = call rules c b' t ts := by
  unfold call
  rw [h]

def verbBlockers : List String := ["FOR", "ON", "OR", "BEFORE", "AFTER", "OF", "INSTEAD"]

def changeVerbs : List String := ["UPDATE", "DELETE", "INSERT", "MERGE", "REPLACE"]

lemma step_congr_before
    (hfrom : isAny ["FROM"] t → b.any (isAny ["DISTINCT"]) = b'.any (isAny ["DISTINCT"]))
    (hverb : isAny changeVerbs t →
      (b.any fun u => isAny verbBlockers u || u.isSymbol ",") =
        b'.any fun u => isAny verbBlockers u || u.isSymbol ",")
    (hcall : isAny (changeVerbs ++ ["CALL", "WITH"]) t = false →
      ∀ c, call rules c b t ts = call rules c b' t ts) (st : State) (plain : Bool) :
    step rules st b plain t ts = step rules st b' plain t ts := by
  unfold verbBlockers at hverb
  unfold step
  cases hplain : t.plainWord? with
  | none => rfl
  | some w =>
    have hword {word : String} {words : List String} (hupper : w.upper = word)
        (hmem : word ∈ words) : isAny words t := by
      simp [isAny, hplain, Word.isAny, hupper, hmem]
    dsimp only
    congr 2
    split
    case h_1 hupper => rw [hfrom (hword hupper (by decide))]
    case h_3 hupper => rw [hverb (hword hupper (by decide))]
    case h_4 hupper => rw [hverb (hword hupper (by decide))]
    case h_5 hupper => rw [hverb (hword hupper (by decide))]
    case h_6 hupper => rw [hverb (hword hupper (by decide))]
    case h_7 hupper => rw [hverb (hword hupper (by decide))]
    case h_12 =>
      have hother : isAny (changeVerbs ++ ["CALL", "WITH"]) t = false := by
        simp only [isAny, hplain, Option.any_some, Word.isAny, changeVerbs, contains_eq_mem,
          decide_eq_false_iff_not, mem_append, mem_cons, not_mem_nil, or_false, not_or]
        exact ⟨⟨‹_›, ‹_›, ‹_›, ‹_›, ‹_›⟩, ‹_›, ‹_›⟩
      rw [hcall hother]
    all_goals rfl

lemma harvest_eq (rules : Rules) (c : Collector) (ts : List Token) :
    harvest rules c ts = (run rules ⟨c, false⟩ none (plainFlags (bare ts)) (bare ts)).collector :=
      rfl

lemma topFree_of_eq_append {b : List Token} (hx : a = b ++ t :: x)
    (htop : ∀ t ∈ a.getLast?, isAny ["TOP"] t = false) (v : List Token) : TopFree x v := by
  intro u hu hisTop
  rw [htop u (mem_getLast?_of_eq_append hx hu)] at hisTop
  cases hisTop

/-- **Two parts with semicolons between them.** To harvest two lists one after the other is to
harvest them with two semicolons between them. -/
lemma harvest_semicolons (hp : ClosesParens p) (rules : Rules) (c : Collector) (q : List Token) :
    harvest rules (harvest rules c p) q =
      harvest rules c (p ++ .symbol ";" :: .symbol ";" :: q) := by
  have hbare : bare (p ++ .symbol ";" :: .symbol ";" :: q) =
      (bare p ++ [.symbol ";"]) ++ .symbol ";" :: bare q := by
    rw [bare_append, append_assoc]
    rfl
  have hdepth : ClosesParens (bare p) := (foldl_depthAfter_bare 0 p).trans hp
  have hdepth' : ClosesParens (bare p ++ [.symbol ";"]) := closesParens_concat hdepth rfl
  have hlast : ∀ t ∈ (bare p ++ [symbol ";"]).getLast?, isAny ["TOP"] t = false := by
    intro t ht
    rw [getLast?_concat, Option.mem_def, Option.some.injEq] at ht
    rw [← ht]
    rfl
  have hblind : Blind rules [] (bare p ++ [.symbol ";"]) (.symbol ";" :: bare q) [] := by
    intro st plain b t x hx
    have htop : TopFree x (.symbol ";" :: bare q) := topFree_of_eq_append hx hlast _
    have hclosed : Closed x := closed_of_eq_append (a := b ++ [t]) hdepth' (by simpa using hx)
    rw [append_nil]
    exact step_semicolon hclosed htop ..
  have hbehind (st : State) (flags : List Bool) :
      run rules st (some (.symbol ";")) flags (bare q) = run rules st none flags (bare q) :=
    run_congr_before fun t x plain _ =>
      step_congr_before (fun _ => rfl) (fun _ => rfl) (fun _ c => call_congr_before rfl c t x) st
        plain
  have hflags : plainFlags (bare p ++ [.symbol ";"]) = plainFlags (bare p) ++ [false] :=
    plainFlags_append hdepth _
  have hflags' : plainFlags (.symbol ";" :: bare q) = false :: plainFlags (bare q) := rfl
  have hnil : bare p = [] ++ bare p := rfl
  rw [harvest_eq, harvest_eq, harvest_eq, hbare, run_plainFlags_append hdepth' hblind hlast,
    run_semicolon, hbehind, hflags', drop_one, tail_cons, hflags,
    collector_run_semicolon hdepth rules hnil _ _ (length_plainFlags _)]

end SqlOutline.Harvest
