import SqlOutline.Proofs.Reference.Lookahead

/-!
# Steps of harvesting in front of a wall

Two walls that look alike cannot be told apart by a step in front of them. A list of tables in front
of a wall ends there, unless the wall can be taken for an alias.

## Main definitions

* `SameWall` — two walls that look alike.
* `aliasWidth`, `hintWidth`, `groupLength`, `tailLength` — how much is read behind a table.

## Main results

* `tableList_of_none`, `tableList_of_some` — one table of a list.
* `Wall.tableList_append` — a list of tables is the same with a wall behind it.
* `SameWall.step_append` — a step is the same in front of two walls that look alike.
-/

namespace SqlOutline.Harvest

open Option Bool List Text Sql Token

variable {words : List String} {t : Token} {n : Nat} {ts : List Token} {name : Text}
  (commas : Bool) (rounds : Nat) (c : Collector) (rules : Rules)

/-! ## Walls that look alike -/

/-- Two walls that a step in front of them cannot tell apart, apart from a list of tables. -/
structure SameWall (y z : List Token) : Prop where
  left : Wall y
  right : Wall z
  isWord : y.head?.any isWord = z.head?.any isWord
  ends : endsStatement y = endsStatement z
  chain : chain? y = chain? z
  execute : ∀ c, execute c y = execute c z
  assigns : startsWithMark "=" y = startsWithMark "=" z
  assigned : startsWithMark "=" y → chain? (y.drop 1) = chain? (z.drop 1)
  cte : ∀ c, cte c y = cte c z
  defines : (startsWith ["AS"] y && startsWithMark "(" (y.drop 1)) =
    (startsWith ["AS"] z && startsWithMark "(" (z.drop 1))

/-- Records the common table expression whose name stands at the front. -/
def namedCte (c : Collector) : List Token → Collector
  | .word w :: rest =>
    if startsWith ["AS"] rest && startsWithMark "(" (rest.drop 1) then c.addCte w.value.toList
    else c
  | _ => c

lemma cte_eq (ts : List Token) :
    cte c ts = namedCte c (if startsWith ["RECURSIVE"] ts then ts.drop 1 else ts) := rfl

variable {x y z : List Token}

lemma Unglued.congr (h : Unglued x y)
    (hyz : y.head?.any isWord = z.head?.any isWord) : Unglued x z :=
  fun t ht hmark => hyz ▸ h t ht hmark

namespace SameWall

variable {x y z : List Token} (h : SameWall y z)

include h

lemma chain?_append (hglue : Unglued x y) : chain? (x ++ y) = chain? (x ++ z) := by
  by_cases hx : x = []
  · rw [hx]
    exact h.chain
  · rw [h.left.chain?_append hx hglue, h.right.chain?_append hx (hglue.congr h.isWord)]

lemma endsStatement_append (x : List Token) : endsStatement (x ++ y) = endsStatement (x ++ z) := by
  cases x with
  | nil => exact h.ends
  | cons t x => rfl

lemma defines_append (x : List Token) :
    (startsWith ["AS"] (x ++ y) && startsWithMark "(" ((x ++ y).drop 1)) =
      (startsWith ["AS"] (x ++ z) && startsWithMark "(" ((x ++ z).drop 1)) := by
  rcases x with _ | ⟨t, _ | ⟨u, x⟩⟩
  · exact h.defines
  · simp [h.left.marks "(" (by simp), h.right.marks "(" (by simp)]
  · rfl

lemma cte_append (x : List Token) : Harvest.cte c (x ++ y) = Harvest.cte c (x ++ z) := by
  have hwalls (w : List Token) (hw : Wall w) : startsWith ["RECURSIVE"] w = false :=
    startsWith_of_subset hw.words (by decide)
  have hcons (t : Token) (x : List Token) :
      namedCte c (t :: x ++ y) = namedCte c (t :: x ++ z) := by
    cases t with
    | word w =>
      simp only [cons_append, namedCte]
      rw [h.defines_append x]
    | _ => rfl
  rcases x with _ | ⟨t, x⟩
  · exact h.cte c
  · rw [cte_eq, cte_eq]
    cases ht : isAny ["RECURSIVE"] t with
    | false =>
      have hfirst (w : List Token) : startsWith ["RECURSIVE"] (t :: x ++ w) = false := ht
      simp only [hfirst]
      exact hcons t x
    | true =>
      have hfirst (w : List Token) : startsWith ["RECURSIVE"] (t :: x ++ w) := ht
      simp only [hfirst]
      cases x with
      | nil =>
        have hcte := h.cte c
        rw [cte_eq, cte_eq] at hcte
        simpa [hwalls y h.left, hwalls z h.right] using hcte
      | cons u x => exact hcons u x

lemma resultLength_append (hglue : Unglued (t :: x) y) :
    resultLength (t :: x ++ y) = resultLength (t :: x ++ z) ∧
      chain? ((t :: x ++ y).drop (resultLength (t :: x ++ y))) =
        chain? ((t :: x ++ z).drop (resultLength (t :: x ++ z))) := by
  have hassigns : startsWithMark "=" (x ++ y) = startsWithMark "=" (x ++ z) := by
    cases x with
    | nil => exact h.assigns
    | cons u x => rfl
  have hlength : resultLength (t :: x ++ y) = resultLength (t :: x ++ z) := by
    cases t with
    | word w => simp only [cons_append, resultLength, hassigns]
    | _ => rfl
  refine ⟨hlength, ?_⟩
  rw [← hlength]
  have htwo : resultLength (t :: x ++ y) = 0 ∨
      resultLength (t :: x ++ y) = 2 ∧ startsWithMark "=" (x ++ y) := by
    cases t with
    | word w =>
      simp only [cons_append, resultLength, and_eq_true]
      split_ifs with hresult
      · exact .inr ⟨rfl, hresult.1⟩
      · exact .inl rfl
    | _ => exact .inl rfl
  rcases htwo with hzero | ⟨htwo, hmark⟩
  · rw [hzero]
    exact h.chain?_append hglue
  · rw [htwo]
    cases x with
    | nil => exact h.assigned hmark
    | cons u x =>
      have hx : Unglued x y := by simpa using hglue.drop 2
      exact h.chain?_append hx

lemma execute_append (hglue : Unglued x y) (c : Collector) :
    Harvest.execute c (x ++ y) = Harvest.execute c (x ++ z) := by
  cases x with
  | nil => exact h.execute c
  | cons t x =>
    have hword (words : List String) :
        startsWith words (t :: x ++ y) = startsWith words (t :: x ++ z) := rfl
    have hx : Unglued x y := by simpa using hglue.drop 1
    have hchain : chain? ((t :: x ++ y).drop 1) = chain? ((t :: x ++ z).drop 1) :=
      h.chain?_append hx
    obtain ⟨hlength, hresult⟩ := h.resultLength_append hglue
    rw [execute_eq, execute_eq, hword, hword, hword, hchain, hresult, hlength]

/-- **A call** is read alike in front of both walls. -/
lemma call_append (hclosed : Closed x) (hglue : Unglued (t :: x) y) (rules : Rules)
    (c : Collector) (before : Option Token) :
    call rules c before t (x ++ y) = call rules c before t (x ++ z) := by
  have hy : chain? (t :: (x ++ y)) = chain? (t :: x) :=
    h.left.chain?_append (cons_ne_nil t x) hglue
  have hz : chain? (t :: (x ++ z)) = chain? (t :: x) :=
    h.right.chain?_append (cons_ne_nil t x) (hglue.congr h.isWord)
  unfold call
  rw [hy, hz]
  cases hchain : chain? (t :: x) with
  | none => rfl
  | some found =>
    obtain ⟨name, n⟩ := found
    have hn : n - 1 ≤ x.length := by
      have hle := (of_chain?_eq_some hchain).2
      rw [length_cons] at hle
      omega
    dsimp only
    rw [drop_append_of_le_length hn, drop_append_of_le_length hn,
      h.left.startsWithMark_append (by simp), h.right.startsWithMark_append (by simp),
      h.endsStatement_append]
    cases hparen : startsWithMark "(" (x.drop (n - 1)) with
    | false => rfl
    | true =>
      obtain ⟨k, hk, hky, hle⟩ := (hclosed.drop (n - 1)).closing?_append hparen y
      have hkz := (closing?_spec hk).2 z
      simp only [hky, hkz, any_some, drop_append_of_le_length hle, h.endsStatement_append]

end SameWall

/-! ## Lists of tables -/

def aliasWidth : List Token → Nat
  | [] => 0
  | t :: rest =>
    if isAny ["AS"] t then (if rest.head?.any isWord then 2 else 1)
    else
      match t with
      | .word w => if w.quote.isSome || !w.isAny reserved then 1 else 0
      | _ => 0

def hintWidth (ts : List Token) : Nat :=
  if startsWith ["WITH"] ts && startsWithMark "(" (ts.drop 1) then
    match closing? 0 (ts.drop 1) with
    | some n => 1 + n
    | none => 0
  else 0

lemma aliasLength_eq (ts : List Token) :
    aliasLength ts = aliasWidth ts + hintWidth (ts.drop (aliasWidth ts)) := by
  have hname : aliasLength ts =
      if startsWith ["WITH"] (ts.drop (aliasWidth ts)) &&
          startsWithMark "(" ((ts.drop (aliasWidth ts)).drop 1) then
        match closing? 0 ((ts.drop (aliasWidth ts)).drop 1) with
        | some n => aliasWidth ts + 1 + n
        | none => aliasWidth ts
      else aliasWidth ts := by
    unfold aliasLength aliasWidth
    rfl
  rw [hname, hintWidth]
  split_ifs
  · cases closing? 0 ((ts.drop (aliasWidth ts)).drop 1) with
    | none => rfl
    | some n => exact Nat.add_assoc ..
  · rfl

def AliasFree (x y : List Token) : Prop :=
  ∀ t ∈ x.getLast?, isAny ["AS"] t → y.head?.any isWord = false

section Tables

variable {x y : List Token}

lemma AliasFree.drop (h : AliasFree x y) (n : Nat) : AliasFree (x.drop n) y := fun t ht =>
  h t (mem_getLast?_of_drop ht)

lemma aliasWidth_le (ts : List Token) : aliasWidth ts ≤ ts.length := by
  cases ts with
  | nil => exact Nat.le_refl 0
  | cons t ts =>
    simp only [aliasWidth, length_cons]
    split_ifs with has hword
    · cases ts with
      | nil => cases hword
      | cons u ts => simp
    · omega
    · split
      · split_ifs <;> omega
      · omega

lemma hintWidth_le (ts : List Token) : hintWidth ts ≤ ts.length := by
  unfold hintWidth
  split_ifs with h
  · have hone := one_le_length_of_head (and_eq_true_iff.mp h).1
    split
    · rename_i n hn
      have hle := (closing?_spec hn).1
      rw [length_drop] at hle
      omega
    · exact Nat.zero_le _
  · exact Nat.zero_le _

lemma aliasLength_le (ts : List Token) : aliasLength ts ≤ ts.length := by
  have hname := aliasWidth_le ts
  have hhint := hintWidth_le (ts.drop (aliasWidth ts))
  rw [length_drop] at hhint
  rw [aliasLength_eq]
  omega

lemma aliasWidth_append (hy : aliasWidth y = 0) (halias : AliasFree x y) :
    aliasWidth (x ++ y) = aliasWidth x := by
  rcases x with _ | ⟨t, _ | ⟨u, x⟩⟩
  · exact hy
  · cases has : isAny ["AS"] t with
    | false => simp [aliasWidth, has]
    | true => simp [aliasWidth, has, halias t rfl has]
  · rfl

lemma Wall.hintWidth_append (h : Wall y) (hclosed : Closed x) :
    hintWidth (x ++ y) = hintWidth x := by
  unfold hintWidth
  rw [h.startsWith_append (by decide)]
  cases x with
  | nil => rfl
  | cons t x =>
    obtain ⟨hparen, hclosing⟩ := h.group_append (x := x) (hclosed.drop 1)
    rw [cons_append, drop_one, drop_one, tail_cons, tail_cons, hparen]
    split_ifs with hx
    · rw [hclosing (and_eq_true_iff.mp hx).2]
    · rfl

lemma Wall.aliasLength_append (h : Wall y) (hy : aliasWidth y = 0) (hclosed : Closed x)
    (halias : AliasFree x y) : aliasLength (x ++ y) = aliasLength x := by
  rw [aliasLength_eq, aliasLength_eq, aliasWidth_append hy halias,
    drop_append_of_le_length (aliasWidth_le x), h.hintWidth_append (hclosed.drop _)]

def skipLength (ts : List Token) : Nat := runLength (isAny ["LATERAL", "ONLY"]) ts

def groupLength (ts : List Token) : Nat :=
  if startsWithMark "(" ts then (closing? 0 ts).getD 1 else 0

def tailLength (ts : List Token) : Nat := groupLength ts + aliasLength (ts.drop (groupLength ts))

def addTable (c : Collector) (name : Text) (ts : List Token) : Collector :=
  if startsWithMark "(" ts then c.addFunction name else c.addRelation name

lemma tableList_of_none (h : relation? (ts.drop (skipLength ts)) = none)
    (commas : Bool) (rounds : Nat) (c : Collector) :
    tableList commas (rounds + 1) c ts = (c, skipLength ts) := by
  unfold skipLength at h ⊢
  rw [tableList]
  simp only [h]

lemma tableList_of_some
    (h : relation? (ts.drop (skipLength ts)) = some (name, n)) (commas : Bool) (rounds : Nat)
    (c : Collector) : tableList commas (rounds + 1) c ts =
      let rest := (ts.drop (skipLength ts)).drop n
      let read := skipLength ts + n + tailLength rest
      if commas && startsWithMark "," (rest.drop (tailLength rest)) then
        let more := tableList commas rounds (addTable c name rest)
          ((rest.drop (tailLength rest)).drop 1)
        (more.1, read + 1 + more.2)
      else (addTable c name rest, read) := by
  unfold skipLength at h ⊢
  rw [tableList]
  simp only [h]
  generalize (ts.drop (runLength (isAny ["LATERAL", "ONLY"]) ts)).drop n = rest
  cases hparen : startsWithMark "(" rest <;>
    simp [tailLength, groupLength, addTable, hparen, Nat.add_assoc]

lemma groupLength_le (ts : List Token) : groupLength ts ≤ ts.length := by
  unfold groupLength
  split_ifs with h
  · cases hn : closing? 0 ts with
    | none =>
      cases ts with
      | nil => cases h
      | cons t ts => simp
    | some n => exact (closing?_spec hn).1
  · exact Nat.zero_le _

lemma tailLength_le (ts : List Token) : tailLength ts ≤ ts.length := by
  have hgroup := groupLength_le ts
  have halias := aliasLength_le (ts.drop (groupLength ts))
  rw [length_drop] at halias
  unfold tailLength
  omega

lemma snd_tableList_le (ts : List Token) : (tableList commas rounds c ts).2 ≤ ts.length := by
  induction rounds generalizing c ts with
  | zero => exact Nat.zero_le _
  | succ rounds ih =>
    have hskip : skipLength ts ≤ ts.length := runLength_le _ _
    cases h : relation? (ts.drop (skipLength ts)) with
    | none =>
      rw [tableList_of_none h]
      exact hskip
    | some found =>
      obtain ⟨name, n⟩ := found
      have hn := (of_relation?_eq_some h).2
      have htail := tailLength_le ((ts.drop (skipLength ts)).drop n)
      rw [length_drop] at hn
      rw [length_drop, length_drop] at htail
      rw [tableList_of_some h]
      dsimp only
      split_ifs with hcomma
      · have hone : startsWithMark "," (((ts.drop (skipLength ts)).drop n).drop
            (tailLength ((ts.drop (skipLength ts)).drop n))) :=
          (and_eq_true_iff.mp hcomma).2
        have hmore := ih (addTable c name ((ts.drop (skipLength ts)).drop n))
          ((((ts.drop (skipLength ts)).drop n).drop
            (tailLength ((ts.drop (skipLength ts)).drop n))).drop 1)
        have hlong := one_le_length_of_head hone
        simp only [length_drop] at hmore hlong
        dsimp only
        omega
      · dsimp only
        omega

lemma Wall.groupLength_append (h : Wall y) (hclosed : Closed x) :
    groupLength (x ++ y) = groupLength x := by
  obtain ⟨hparen, hclosing⟩ := h.group_append hclosed
  rw [groupLength, groupLength, hparen]
  split_ifs with hx
  · rw [hclosing hx]
  · rfl

lemma Wall.tailLength_append (h : Wall y) (hy : aliasWidth y = 0) (hclosed : Closed x)
    (halias : AliasFree x y) : tailLength (x ++ y) = tailLength x := by
  unfold tailLength
  rw [h.groupLength_append hclosed, drop_append_of_le_length (groupLength_le x),
    h.aliasLength_append hy (hclosed.drop _) (halias.drop _)]

/-- **A list of tables** ends in front of a wall.

**Proof sketch.** Induction on the rounds. The name, the arguments and the alias of a table are read
in front of the wall, and the wall is no comma. -/
lemma Wall.tableList_append (h : Wall y) (hy : aliasWidth y = 0) (commas : Bool) {rounds more : Nat}
    (hrounds : x.length < rounds) (hmore : x.length < more) (hclosed : Closed x)
    (hglue : Unglued x y) (halias : AliasFree x y) (c : Collector) :
    tableList commas more c (x ++ y) = tableList commas rounds c x := by
  induction rounds generalizing more x c with
  | zero => exact absurd hrounds (Nat.not_lt_zero _)
  | succ rounds ih =>
    obtain ⟨more, rfl⟩ := Nat.exists_eq_add_one_of_ne_zero (Nat.ne_zero_of_lt hmore)
    have hskip : skipLength x ≤ x.length := runLength_le _ _
    have hskipped : skipLength (x ++ y) = skipLength x := h.runLength_append (by decide) x
    have hrelation : relation? ((x ++ y).drop (skipLength (x ++ y))) =
        relation? (x.drop (skipLength x)) := by
      rw [hskipped, drop_append_of_le_length hskip, h.relation?_append (hglue.drop _)]
    cases hfound : relation? (x.drop (skipLength x)) with
    | none => rw [tableList_of_none hfound, tableList_of_none (hrelation.trans hfound), hskipped]
    | some found =>
      obtain ⟨name, n⟩ := found
      have hn := (of_relation?_eq_some hfound).2
      rw [tableList_of_some hfound, tableList_of_some (hrelation.trans hfound), hskipped,
        drop_append_of_le_length hskip, drop_append_of_le_length hn]
      dsimp only
      have hclosed' : Closed ((x.drop (skipLength x)).drop n) := (hclosed.drop _).drop _
      have hglue' : Unglued ((x.drop (skipLength x)).drop n) y := (hglue.drop _).drop _
      have halias' : AliasFree ((x.drop (skipLength x)).drop n) y := (halias.drop _).drop _
      have hshort : ((x.drop (skipLength x)).drop n).length ≤ x.length := by
        simp only [length_drop]
        omega
      generalize (x.drop (skipLength x)).drop n = rest at hclosed' hglue' halias' hshort ⊢
      have htail : tailLength rest ≤ rest.length := tailLength_le rest
      have htable : addTable c name (rest ++ y) = addTable c name rest := by
        unfold addTable
        rw [h.startsWithMark_append (by simp)]
      rw [h.tailLength_append hy hclosed' halias', drop_append_of_le_length htail,
        h.startsWithMark_append (by simp), htable]
      split_ifs with hcomma
      · have hone := one_le_length_of_head (and_eq_true_iff.mp hcomma).2
        have hlength : ((rest.drop (tailLength rest)).drop 1).length < x.length := by
          rw [length_drop] at hone
          simp only [length_drop]
          omega
        rw [drop_append_of_le_length hone, ih (by omega) (by omega)
          ((hclosed'.drop _).drop _) ((hglue'.drop _).drop _) ((halias'.drop _).drop _)]
      · rfl

end Tables

/-! ## Steps -/

def tableWords : List String := ["FROM", "JOIN", "USING"]

lemma snd_step_le (st : State) (before : Option Token) (plain : Bool) (t : Token)
    (ts : List Token) (htop : ∀ u ∈ ts.getLast?, isAny ["TOP"] u = false) :
    (step rules st before plain t ts).2 ≤ ts.length := by
  unfold step
  dsimp only
  by_cases hsemicolon : t.isSymbol ";"
  · rw [if_pos hsemicolon]
    exact Nat.zero_le _
  rw [if_neg hsemicolon]
  by_cases hcomma : t.isSymbol ","
  · rw [if_pos hcomma]
    exact Nat.zero_le _
  rw [if_neg hcomma]
  cases t.plainWord? with
  | none => exact Nat.zero_le _
  | some w =>
    dsimp only
    split
    -- `FROM` and `JOIN`
    case h_1 =>
      split_ifs
      · exact Nat.zero_le _
      · exact snd_tableList_le ..
    case h_2 => exact snd_tableList_le ..
    -- `CALL`
    case h_8 =>
      split
      · rename_i name n hn
        exact (of_chain?_eq_some hn).2
      · exact Nat.zero_le _
    -- `EXEC`, `EXECUTE` and `WITH`
    case h_9 | h_10 => exact snd_execute_le ..
    case h_11 => exact Nat.zero_le _
    -- words that are no verbs
    case h_12 =>
      split_ifs
      · exact snd_tableList_le ..
      · cases hn : chain? ts with
        | none => exact Nat.zero_le _
        | some found => exact (of_chain?_eq_some hn).2
      · exact snd_call_le ..
    -- verbs that change data
    all_goals
      split_ifs
      · exact Nat.zero_le _
      · exact snd_target_le _ _ htop

/-- **A step** does the same in front of both walls. -/
lemma SameWall.step_append (h : SameWall y z) (hclosed : Closed x)
    (hglue : Unglued (t :: x) y) (hy : TopFree x y) (hz : TopFree x z)
    (htables : isAny tableWords t →
      aliasWidth y = 0 ∧ aliasWidth z = 0 ∧ AliasFree x y ∧ AliasFree x z)
    (rules : Rules) (st : State) (before : Option Token) (plain : Bool) :
    step rules st before plain t (x ++ y) = step rules st before plain t (x ++ z) := by
  have hglue' : Unglued x y := by simpa using hglue.drop 1
  have hglue'' : Unglued x z := hglue'.congr h.isWord
  have hlist (hword : isAny tableWords t) (commas : Bool) (c : Collector) :
      tableList commas ((x ++ y).length + 1) c (x ++ y) =
        tableList commas ((x ++ z).length + 1) c (x ++ z) := by
    obtain ⟨hwidth, hwidth', hfree, hfree'⟩ := htables hword
    have hlength (v : List Token) : x.length < (x ++ v).length + 1 := by
      rw [length_append]
      omega
    rw [h.left.tableList_append hwidth commas (Nat.lt_succ_self x.length) (hlength y) hclosed
        hglue' hfree,
      h.right.tableList_append hwidth' commas (Nat.lt_succ_self x.length) (hlength z) hclosed
        hglue'' hfree']
  have htarget (c : Collector) : target c (x ++ y) = target c (x ++ z) := by
    rw [h.left.target_append hclosed hglue' hy, h.right.target_append hclosed hglue'' hz]
  have hchain : chain? (x ++ y) = chain? (x ++ z) := h.chain?_append hglue'
  unfold step
  simp only [h.cte_append _ x, htarget, hchain, h.execute_append hglue',
    h.call_append hclosed hglue]
  cases hplain : t.plainWord? with
  | none => rfl
  | some w =>
    have hword (word : String) (hupper : w.upper = word) (hmem : word ∈ tableWords) :
        isAny tableWords t := by
      simp [isAny, hplain, Word.isAny, hupper, hmem]
    dsimp only
    congr 2
    split
    case h_1 hupper => rw [hlist (hword _ hupper (by decide))]
    case h_2 hupper => rw [hlist (hword _ hupper (by decide))]
    case h_12 =>
      by_cases husing : (w.upper == "USING" && st.inMerge)
      · have hupper : w.upper = "USING" := by simpa using (and_eq_true_iff.mp husing).1
        rw [hlist (hword _ hupper (by decide))]
      · rw [if_neg husing, if_neg husing]
    all_goals rfl

end SqlOutline.Harvest
