import SqlOutline.Proofs.Reference.DerivedTable

/-!
# Harvesting as loops over indices

Every turn of a loop over tokens that is followed by another one starts at a token and leads to a
token behind it.

## Main definitions

* `loop?`, `Computes`, `Ends` — a loop over indices, one that computes a result, and one that ends.
* `nextIndex`, `harvestTurn` — where a step goes on, and one turn of harvesting.

## Main results

* `nextIndex_eq`, `lt_nextIndex` — a step goes on behind the tokens that it reads.
* `harvest_ends` — harvesting ends and stays within its tokens.
-/

namespace SqlOutline.Harvest

open List Sql

/-! ## Loops -/

/-- What a turn of a loop leads to: what is known and the index for the next turn, or for the end.
-/
inductive Turn (σ : Type) where
  | next (s : σ) (i : Nat)
  | last (s : σ) (i : Nat)

variable {σ τ : Type} {n : Nat} {turn : σ → Nat → Turn σ}

/-- A loop over indices; there is no result if it has not ended after so many turns. -/
def loop? (turn : σ → Nat → Turn σ) : Nat → σ → Nat → Option (σ × Nat)
  | 0, _, _ => none
  | turns + 1, s, i =>
    match turn s i with
    | .next s j => loop? turn turns s j
    | .last s j => some (s, j)

/-- A turn that is followed by another one starts at one of `n` indices and leads to a higher one.
-/
def Ascends (n : Nat) (turn : σ → Nat → Turn σ) : Prop :=
  ∀ s i s' j, turn s i = .next s' j → i < n ∧ i < j

/-- The turns of a loop ascend, and they fit the result of the loop, which may depend on the number
of turns that are left. -/
def Computes (n : Nat) (turn : σ → Nat → Turn σ) (out : σ × Nat → τ) (result : Nat → σ → Nat → τ) :
    Prop :=
  ∀ s i,
    match turn s i with
    | .next s' j => (i < n ∧ i < j) ∧ ∀ turns, result (turns + 1) s i = result turns s' j
    | .last s' j => ∀ turns, result (turns + 1) s i = out (s', j)

/-- The turns of a loop ascend, and from each index it has a result after at most as many turns as
there are indices from there on and one. -/
def Ends (n : Nat) (turn : σ → Nat → Turn σ) (out : σ × Nat → τ) (result : σ → Nat → τ) : Prop :=
  Ascends n turn ∧ ∀ s i, (loop? turn (n - i + 1) s i).map out = some (result s i)

section Computes

variable {out : σ × Nat → τ} {result : Nat → σ → Nat → τ} (h : Computes n turn out result)

include h

/-- **A loop that ascends ends**: there are more turns left than indices. -/
lemma Computes.loop?_eq {turns i : Nat} (hturns : n - i < turns) (s : σ) :
    (loop? turn turns s i).map out = some (result turns s i) := by
  induction turns generalizing s i with
  | zero => exact absurd hturns (Nat.not_lt_zero _)
  | succ turns ih =>
    have hspec := h s i
    rw [loop?]
    cases hturn : turn s i with
    | next s' j =>
      rw [hturn] at hspec
      obtain ⟨⟨hi, hj⟩, hresult⟩ := hspec
      rw [hresult]
      exact ih (by omega) s'
    | last s' j =>
      rw [hturn] at hspec
      rw [hspec]
      rfl

lemma Computes.ends : Ends n turn out fun s i => result (n - i + 1) s i := by
  refine ⟨fun s i s' j hturn => ?_, fun s _ => h.loop?_eq (Nat.lt_succ_self _) s⟩
  have hspec := h s i
  rw [hturn] at hspec
  exact hspec.1

end Computes

/-! ## Turns -/

variable (ts : List Token)

/-- One part of a dotted name: its token, a database link, and the dot before the next part. -/
def chainTurn (parts : List String) (i : Nat) : Turn (List String) :=
  match ts.drop i with
  | .word w :: us =>
    let rest := us.drop (linkLength us)
    if startsWithMark "." rest && (rest.drop 1).head?.any Token.isWord then
      .next (parts ++ [w.value]) (i + linkLength us + 2)
    else .last (parts ++ [w.value]) (i + linkLength us + 1)
  | _ => .last parts i

/-- One word that is read over. -/
def wordTurn (words : List String) (_ : Unit) (i : Nat) : Turn Unit :=
  if startsWith words (ts.drop i) then .next () (i + 1) else .last () i

/-- One table of a list, with the comma behind it. -/
def tableTurn (commas : Bool) (c : Collector) (i : Nat) : Turn Collector :=
  let start := i + skipLength (ts.drop i)
  match relation? (ts.drop start) with
  | none => .last c start
  | some (name, k) =>
    let stop := start + k + tailLength (ts.drop (start + k))
    if commas && startsWithMark "," (ts.drop stop) then
      .next (addTable c name (ts.drop (start + k))) (stop + 1)
    else .last (addTable c name (ts.drop (start + k))) stop

/-- The index behind the dotted name at an index. -/
def chainStop? (i : Nat) : Option Nat := (chain? (ts.drop i)).map (i + ·.2)

/-- The index behind the tables that are listed from an index on. -/
def tablesStop (c : Collector) (commas : Bool) (i : Nat) : Nat :=
  i + (tableList commas ((ts.drop i).length + 1) c (ts.drop i)).2

/-- The index behind what the verb at an index is applied to. -/
def targetStop (i : Nat) : Nat :=
  let j := i + 1 + runLength (isAny verbWords) (ts.drop (i + 1))
  if startsWith ["FROM"] (ts.drop j) then j
  else
    let j := j + topLength (ts.drop j)
    (relation? (ts.drop j)).elim j (j + ·.2)

/-- The index behind what the word `EXECUTE` at an index calls. -/
def executeStop (c : Collector) (i : Nat) : Nat :=
  let j := i + 1
  if startsWith ["IMMEDIATE", "AS"] (ts.drop j) then j + 1
  else if startsWith ["FUNCTION", "PROCEDURE"] (ts.drop j) then (chainStop? ts (j + 1)).getD (j + 1)
  else
    let target := j + resultLength (ts.drop j)
    if !c.executeIsCall then target
    else
      match chain? (ts.drop target) with
      | some (name, n) => if name.head? == some '@' then target else target + n
      | none => target

/-- The index at which harvesting goes on behind the token `t` at an index. -/
def nextIndex (st : State) (before : Option Token) (plain : Bool) (t : Token) (i : Nat) : Nat :=
  if t.isSymbol ";" then i + 1
  else if t.isSymbol "," then i + 1
  else
    match t.plainWord? with
    | none => i + 1
    | some w =>
      let tables (commas : Bool) := tablesStop ts st.collector commas (i + 1)
      match w.upper with
      | "FROM" => if plain || before.any (isAny ["DISTINCT"]) then i + 1 else tables true
      | "JOIN" => tables false
      | "UPDATE" | "DELETE" | "INSERT" | "MERGE" | "REPLACE" =>
        if before.any (fun b => isAny verbBlockers b || b.isSymbol ",") then i + 1
        else targetStop ts i
      | "CALL" => (chainStop? ts (i + 1)).getD (i + 1)
      | "EXEC" | "EXECUTE" => executeStop ts st.collector i
      | "WITH" => i + 1
      | word =>
        if word == "USING" && st.inMerge then tables false
        else if definers.contains word then (chainStop? ts (i + 1)).getD (i + 1)
        else (chainStop? ts i).getD (i + 1)

/-- One step of harvesting, if there is a token left. The token, the one before it and its flag are
those at their indices. -/
def harvestTurn (rules : Rules) (st : State) (i : Nat) : Turn State :=
  if h : i < ts.length then
    let before := if 0 < i then some (ts.get ⟨i - 1, by omega⟩) else none
    let plain := (plainFlags ts).get ⟨i, by rwa [length_plainFlags]⟩
    let t := ts.get ⟨i, h⟩
    .next (step rules st before plain t (ts.drop (i + 1))).1 (nextIndex ts st before plain t i)
  else .last st i

/-! ## What the loops give -/

variable {ts} {i : Nat}

lemma drop_succ_of_drop {t : Token} {us : List Token} (h : ts.drop i = t :: us) :
    i < ts.length ∧ ts.drop (i + 1) = us := by
  refine ⟨?_, by rw [← drop_drop, h]; rfl⟩
  by_contra hi
  rw [drop_of_length_le (Nat.not_lt.mp hi)] at h
  cases h

variable (ts)

lemma computes_chain : Computes ts.length (chainTurn ts) id fun _ parts i =>
    (parts ++ (chainParts (ts.drop i)).1, i + (chainParts (ts.drop i)).2) := by
  intro parts i
  unfold chainTurn
  cases hus : ts.drop i with
  | nil => simp [hus, chainParts]
  | cons t us =>
    obtain ⟨hi, hnext⟩ := drop_succ_of_drop hus
    cases t with
    | word w =>
      simp only [hus, chainParts_word]
      split_ifs with hmore
      · have hrest : ts.drop (i + linkLength us + 2) = (us.drop (linkLength us)).drop 1 := by
          rw [drop_drop, ← hnext, drop_drop]
          congr 1
          omega
        refine ⟨⟨hi, by omega⟩, fun _ => ?_⟩
        simp only [hrest, append_assoc, singleton_append, Prod.mk.injEq, true_and]
        omega
      · exact fun _ => Prod.ext rfl (Nat.add_assoc ..).symm
    | _ => simp [hus, chainParts]

lemma computes_words (words : List String) : Computes ts.length (wordTurn ts words) id fun _ _ i =>
    ((), i + runLength (isAny words) (ts.drop i)) := by
  intro _ i
  unfold wordTurn
  cases hus : ts.drop i with
  | nil => simp [hus, startsWith, runLength]
  | cons t us =>
    obtain ⟨hi, hnext⟩ := drop_succ_of_drop hus
    have hstarts : startsWith words (t :: us) = isAny words t := rfl
    simp only [hus, hstarts, runLength, takeWhile_cons]
    split_ifs
    · refine ⟨⟨hi, Nat.lt_succ_self i⟩, fun _ => Prod.ext rfl ?_⟩
      rw [hnext, length_cons]
      omega
    · exact fun _ => rfl

lemma computes_tables (commas : Bool) : Computes ts.length (tableTurn ts commas) id
    fun rounds c i => ((tableList commas rounds c (ts.drop i)).1,
      i + (tableList commas rounds c (ts.drop i)).2) := by
  intro c i
  unfold tableTurn
  cases hfound : relation? ((ts.drop i).drop (skipLength (ts.drop i))) with
  | none =>
    simp only [tableList_of_none hfound, ← drop_drop, hfound]
    exact fun _ => rfl
  | some found =>
    obtain ⟨name, k⟩ := found
    simp only [tableList_of_some hfound]
    rw [drop_drop] at hfound
    simp only [hfound, drop_drop]
    split_ifs with hmore
    · have hcomma := one_le_length_of_head (Bool.and_eq_true_iff.mp hmore).2
      rw [length_drop] at hcomma
      refine ⟨⟨by omega, by omega⟩, fun rounds => ?_⟩
      exact Prod.ext rfl (by dsimp only; omega)
    · exact fun rounds => Prod.ext rfl (by dsimp only [id]; omega)

/-- The token before an index, if there is one. -/
def tokenBefore (ts : List Token) (i : Nat) : Option Token := if 0 < i then ts[i - 1]? else none

lemma getLast?_take_drop {m : Nat} (h : i + m < ts.length) :
    some (((ts.drop (i + 1)).take m).getLast?.getD ts[i]) = tokenBefore ts (i + 1 + m) := by
  have hlast : (ts[i] :: (ts.drop (i + 1)).take m).getLast? = ts[i + m]? := by
    rw [← take_succ_cons, ← drop_eq_getElem_cons, getLast?_take, if_neg (Nat.succ_ne_zero m),
      Nat.add_sub_cancel, getElem?_drop, getElem?_eq_getElem h, Option.some_or]
  rw [← getLast?_cons, hlast, tokenBefore, if_pos (by omega)]
  congr 1
  omega

/-! ## The index of the next step -/

section Stops

variable (i : Nat)

lemma chainStop?_getD : (chainStop? ts i).getD i = i + (chain? (ts.drop i)).elim 0 (·.2) := by
  unfold chainStop?
  cases chain? (ts.drop i) <;> rfl

lemma chainStop?_getD_call (rules : Rules) {c : Collector} {before : Option Token} {t : Token}
    (ht : ts.drop i = t :: ts.drop (i + 1)) : (chainStop? ts i).getD (i + 1) =
      i + 1 + (call rules c before t (ts.drop (i + 1))).2 := by
  rw [snd_call, ← ht, chainStop?]
  cases hchain : chain? (ts.drop i) with
  | none => rfl
  | some found =>
    have hpos := (of_chain?_eq_some hchain).1
    dsimp only [Option.map, Option.getD, Option.elim]
    omega

lemma targetStop_eq (c : Collector) : targetStop ts i = i + 1 + (target c (ts.drop (i + 1))).2 := by
  unfold targetStop
  rw [target_eq]
  simp only [drop_drop]
  split_ifs
  · rfl
  · cases relation? (ts.drop (i + 1 + runLength (isAny verbWords) (ts.drop (i + 1)) +
      topLength (ts.drop (i + 1 + runLength (isAny verbWords) (ts.drop (i + 1)))))) with
    | none =>
      dsimp only [Option.elim]
      omega
    | some found =>
      dsimp only [Option.elim]
      omega

lemma executeStop_eq (c : Collector) :
    executeStop ts c i = i + 1 + (execute c (ts.drop (i + 1))).2 := by
  unfold executeStop
  rw [execute_eq]
  dsimp only
  rw [chainStop?_getD]
  simp only [drop_drop]
  by_cases has : startsWith ["IMMEDIATE", "AS"] (ts.drop (i + 1))
  · rw [if_pos has, if_pos has]
  rw [if_neg has, if_neg has]
  by_cases hkind : startsWith ["FUNCTION", "PROCEDURE"] (ts.drop (i + 1))
  · rw [if_pos hkind, if_pos hkind]
    cases chain? (ts.drop (i + 1 + 1)) with
    | none => rfl
    | some found =>
      dsimp only [Option.elim]
      omega
  rw [if_neg hkind, if_neg hkind]
  split_ifs
  · rfl
  · cases chain? (ts.drop (i + 1 + resultLength (ts.drop (i + 1)))) with
    | none => rfl
    | some found =>
      dsimp only
      split_ifs
      · rfl
      · dsimp only
        omega

/-- **A step goes on behind the tokens that it reads.** -/
lemma nextIndex_eq (rules : Rules) (st : State) (before : Option Token) (plain : Bool) {t : Token}
    (ht : ts.drop i = t :: ts.drop (i + 1)) : nextIndex ts st before plain t i =
      i + 1 + (step rules st before plain t (ts.drop (i + 1))).2 := by
  unfold step
  dsimp only
  by_cases hsemicolon : t.isSymbol ";"
  · rw [if_pos hsemicolon, nextIndex, if_pos hsemicolon]
    rfl
  by_cases hcomma : t.isSymbol ","
  · rw [if_neg hsemicolon, if_pos hcomma, nextIndex, if_neg hsemicolon, if_pos hcomma]
    rfl
  rw [if_neg hsemicolon, if_neg hcomma]
  cases hword : t.plainWord? with
  | none =>
    rw [nextIndex, if_neg hsemicolon, if_neg hcomma, hword]
    rfl
  | some w =>
    -- only the step is unfolded where its word is split
    dsimp only
    split <;> rw [nextIndex, if_neg hsemicolon, if_neg hcomma, hword] <;> dsimp only
    -- `FROM` and `JOIN`
    case h_1 hupper =>
      simp only [hupper]
      split_ifs
      · rfl
      · rfl
    case h_2 hupper =>
      simp only [hupper]
      rfl
    -- `CALL`, `EXEC`, `EXECUTE` and `WITH`
    case h_8 hupper =>
      simp only [hupper, chainStop?_getD]
      cases chain? (ts.drop (i + 1)) <;> rfl
    case h_9 hupper | h_10 hupper => simp only [hupper, executeStop_eq]
    case h_11 hupper => simp only [hupper, Nat.add_zero]
    -- words that are no verbs
    case h_12 =>
      simp only [*]
      split_ifs
      · rfl
      · exact chainStop?_getD ts (i + 1)
      · exact chainStop?_getD_call ts i rules ht
    -- verbs that change data
    all_goals
      rename_i hupper
      simp only [hupper]
      unfold verbBlockers
      split_ifs
      · rfl
      · exact targetStop_eq ts i st.collector

/-- **Every return of a step is behind the token it starts at.** A call at that token goes on behind
its name, which has a token (`chainStop?_getD_call`). -/
lemma lt_nextIndex (st : State) (before : Option Token) (plain : Bool) {t : Token}
    (ht : ts.drop i = t :: ts.drop (i + 1)) : i < nextIndex ts st before plain t i := by
  rw [nextIndex_eq ts i ⟨false⟩ st before plain ht]
  omega

end Stops

lemma computes_harvest (rules : Rules) : Computes ts.length (harvestTurn ts rules) Prod.fst
    fun _ st i => run rules st (tokenBefore ts i) ((plainFlags ts).drop i) (ts.drop i) := by
  intro st i
  unfold harvestTurn
  by_cases hi : i < ts.length
  · rw [dif_pos hi]
    have ht : ts.drop i = ts[i] :: ts.drop (i + 1) := drop_eq_getElem_cons hi
    refine ⟨⟨hi, lt_nextIndex ts i st _ _ ht⟩, fun _ => ?_⟩
    have hflag : i < (plainFlags ts).length := by rwa [length_plainFlags]
    have hbefore : (if 0 < i then some (ts.get ⟨i - 1, by omega⟩) else none) =
        tokenBefore ts i := by
      unfold tokenBefore
      split_ifs
      · exact (getElem?_eq_getElem _).symm
      · rfl
    dsimp only
    rw [hbefore, ht, drop_eq_getElem_cons hflag, run_cons]
    simp only [headD_cons, get_eq_getElem, nextIndex_eq ts i rules st _ _ ht]
    generalize step rules st (tokenBefore ts i) (plainFlags ts)[i] ts[i] (ts.drop (i + 1)) = next
    rw [drop_succ_cons, drop_drop, drop_drop]
    by_cases hnext : i + next.2 < ts.length
    · rw [getLast?_take_drop ts hnext]
    · have hnil : ts.drop (i + 1 + next.2) = [] := drop_eq_nil_iff.mpr (by omega)
      rw [hnil, run_nil, run_nil]
  · rw [dif_neg hi]
    intro _
    dsimp only
    rw [drop_of_length_le (Nat.not_lt.mp hi), run_nil]

/-- **Harvesting ends and stays within its tokens.** There are as many flags as tokens, and a chain
that is found has at least one token and ends within the list. The loops over the parts of a chain,
the words before a target, the tables of a list and the tokens themselves only go on at a token, to
a higher index, whatever tokens there are and whatever is known. So each of them ends after at most
as many turns as there are tokens from its start on and one, and gives what its reader gives;
`harvest` is what the loop over the tokens gives.

**Proof sketch.** One turn of each loop is one unfolding of its reader (`Computes`), and a loop that
ascends ends (`Computes.loop?_eq`). -/
theorem harvest_ends (rules : Rules) (c : Collector) (tokens : List Token) :
    let ts := tokens.filter (!·.isGap)
    (plainFlags ts).length = ts.length ∧
    (∀ i name k, chain? (ts.drop i) = some (name, k) → 0 < k ∧ i + k ≤ ts.length) ∧
    Ends ts.length (chainTurn ts) id (fun parts i =>
      (parts ++ (chainParts (ts.drop i)).1, i + (chainParts (ts.drop i)).2)) ∧
    (∀ words, Ends ts.length (wordTurn ts words) id fun _ i =>
      ((), i + runLength (isAny words) (ts.drop i))) ∧
    (∀ commas, Ends ts.length (tableTurn ts commas) id fun c i =>
      let read := tableList commas ((ts.drop i).length + 1) c (ts.drop i)
      (read.1, i + read.2)) ∧
    Ends ts.length (harvestTurn ts rules) Prod.fst (fun st i =>
      run rules st (tokenBefore ts i) ((plainFlags ts).drop i) (ts.drop i)) ∧
    (loop? (harvestTurn ts rules) (ts.length + 1) ⟨c, false⟩ 0).map (·.1.collector) =
      some (harvest rules c tokens) := by
  intro ts
  refine ⟨length_plainFlags ts, ?_, (computes_chain ts).ends,
    fun words => (computes_words ts words).ends,
    fun commas => ?_, (computes_harvest ts rules).ends, ?_⟩
  · intro i name k h
    have hread := of_chain?_eq_some h
    rw [length_drop] at hread
    omega
  · simp only [length_drop]
    exact (computes_tables ts commas).ends
  · have hrun := (computes_harvest ts rules).loop?_eq (i := 0) (Nat.lt_succ_self _) ⟨c, false⟩
    have hcollector := congrArg (Option.map State.collector) hrun
    rw [Option.map_map] at hcollector
    exact hcollector

end SqlOutline.Harvest
