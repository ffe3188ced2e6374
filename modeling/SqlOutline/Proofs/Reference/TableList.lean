import SqlOutline.Proofs.Name.Simple
import SqlOutline.Proofs.Reference.Run
import SqlOutline.Proofs.Reference.Seam

/-!
# Lists of tables

Behind `FROM` stand tables with commas between them, each a dotted name, perhaps with arguments in
parentheses, in which case it is a function, and perhaps with an alias.

## Main definitions

* `ListedTable`, `IsAlias` — a table of a list, and its alias.

## Main results

* `tableList_tokens` — one table of a list, and the tables behind the comma.
* `harvest_tables` — a list of tables is harvested completely and exactly.
-/

namespace SqlOutline

open Bool List Text Sql Body Collector Token

namespace Name

lemma normalizeCallee?_join {ps : List Text} (hne : ps ≠ []) (h : ∀ p ∈ ps, isSimple p)
    (hat : ∀ p ∈ ps, '@' ∉ p) : normalizeCallee? (join ['.'] ps) = some (join ['.'] ps) := by
  have hcut (p : Text) (hp : p ∈ ps) : stripQuotes? (p.takeWhile (· != '@')) = some p := by
    have hwhole : p.takeWhile (· != '@') = p :=
      takeWhile_eq_self_iff.mpr fun c hc => by
        simpa using fun hc' : c = '@' => hat p hp (hc' ▸ hc)
    rw [hwhole, stripQuotes?_of_isSimple (h p hp)]
  have hsegments : segments (join ['.'] ps) = ps := segments_join hne fun p hp _ _ _ hu =>
    segmentsFrom_append (fun _ => isSimpleChar_of_mem (h p hp)) hu
  rw [normalizeCallee?, hsegments, filterMap_congr hcut, filterMap_some,
    joinDotted?_of_ne_nil hne fun p hp => ne_nil_of_isSimple (h p hp)]

end Name

namespace Harvest

/-! ## Dotted names -/

/-- A word that can be a part of a name: it is not empty and has no white space, dots, quotes or
brackets in it, nor the marks of variables. -/
def isPart (w : Word) : Bool :=
  Name.isSimple w.value.toList && w.value.toList.all fun c => c != '@' && c != ':'

/-- The tokens of a dotted name. -/
def dotted : List Word → List Token
  | [] => []
  | [w] => [.word w]
  | w :: v :: vs => .word w :: .symbol "." :: dotted (v :: vs)

/-- The name that words with dots between them stand for. -/
def dottedName (ws : List Word) : Text := join ['.'] (ws.map (·.value.toList))

section Dotted

variable {w : Word} {ws : List Word} {y : List Token}

lemma exists_dotted (w : Word) (ws : List Word) : ∃ ts, dotted (w :: ws) = .word w :: ts := by
  cases ws with
  | nil => exact ⟨[], rfl⟩
  | cons v vs => exact ⟨_, rfl⟩

lemma chainParts_dotted (hdot : startsWithMark "." y = false) (hat : startsWithMark "@" y = false)
    (w : Word) (ws : List Word) : chainParts (dotted (w :: ws) ++ y) =
      ((w :: ws).map (·.value), (dotted (w :: ws)).length) := by
  induction ws generalizing w with
  | nil =>
    have hlink : linkLength y = 0 := by
      rw [linkLength, hat, Bool.false_and, if_neg Bool.false_ne_true]
    rw [dotted, cons_append, nil_append, chainParts_word, hlink, drop_zero, hdot]
    rfl
  | cons v vs ih =>
    obtain ⟨ts, hts⟩ := exists_dotted v vs
    have hlink : linkLength (.symbol "." :: (dotted (v :: vs) ++ y)) = 0 := rfl
    have hgoes : (startsWithMark "." (.symbol "." :: (dotted (v :: vs) ++ y)) &&
        (dotted (v :: vs) ++ y).head?.any isWord) := by
      rw [hts]
      rfl
    rw [dotted, cons_append, cons_append, chainParts_word, hlink, drop_zero,
      drop_one, tail_cons, if_pos hgoes, ih]
    rfl

/-- **A dotted name** is read as far as it goes. -/
lemma chain?_dotted (hdot : startsWithMark "." y = false) (hat : startsWithMark "@" y = false)
    (w : Word) (ws : List Word) :
    chain? (dotted (w :: ws) ++ y) = some (dottedName (w :: ws), (dotted (w :: ws)).length) := by
  rw [chain?, chainParts_dotted hdot hat, dottedName]
  simp only [map_cons, map_map]
  rfl

lemma relation?_dotted (hw : w.quote.isSome ∨ w.isAny reserved = false)
    (hdot : startsWithMark "." y = false) (hat : startsWithMark "@" y = false) (ws : List Word) :
    relation? (dotted (w :: ws) ++ y) =
      some (dottedName (w :: ws), (dotted (w :: ws)).length) := by
  obtain ⟨ts, hts⟩ := exists_dotted w ws
  have hname : (w.quote.isSome || !w.isAny reserved) := by
    rw [or_eq_true, not_eq_true']
    exact hw
  rw [← chain?_dotted hdot hat, hts, cons_append, relation?, if_pos hname]

lemma normal?_dottedName (hne : ws ≠ []) (h : ∀ w ∈ ws, isPart w) :
    normal? (dottedName ws) = some (String.ofList (dottedName ws)) := by
  have hpart : ∀ p ∈ ws.map (·.value.toList), Name.isSimple p ∧ '@' ∉ p := by
    intro p hp
    obtain ⟨w, hw, rfl⟩ := mem_map.mp hp
    have hw := h w hw
    rw [isPart, and_eq_true, all_eq_true] at hw
    refine ⟨hw.1, fun hat => ?_⟩
    simpa using hw.2 '@' hat
  have hnormal := Name.normalizeCallee?_join (by simpa using hne) (fun p hp => (hpart p hp).1)
    fun p hp => (hpart p hp).2
  rw [normal?, dottedName, hnormal, Option.map_some]

lemma dottedName_ne_variable (hne : ws ≠ []) (h : ∀ w ∈ ws, isPart w) :
    trim (dottedName ws) = dottedName ws ∧
      ((dottedName ws).head? == some '@' || (dottedName ws).head? == some ':') = false := by
  have hsimple : ∀ p ∈ ws.map (·.value.toList), Name.isSimple p := by
    intro p hp
    obtain ⟨w, hw, rfl⟩ := mem_map.mp hp
    have hw := h w hw
    rw [isPart, and_eq_true] at hw
    exact hw.1
  refine ⟨trim_of_not_blank fun c hc => Name.not_isBlank_of_mem_join hsimple hc, ?_⟩
  obtain ⟨w, ws, rfl⟩ := exists_cons_of_ne_nil hne
  have hw := h w mem_cons_self
  rw [isPart, and_eq_true, all_eq_true] at hw
  obtain ⟨c, x, hx⟩ := exists_cons_of_ne_nil (Name.ne_nil_of_isSimple hw.1)
  obtain ⟨t, ht⟩ := exists_join_cons ['.'] w.value.toList (ws.map (·.value.toList))
  have hhead : (dottedName (w :: ws)).head? = some c := by
    rw [dottedName, map_cons, ht, hx]
    rfl
  have hc := hw.2 c (by simp [hx])
  rw [hhead]
  simpa using hc

end Dotted

/-! ## Parentheses -/

def depth? (depth : Nat) : List Token → Option Nat
  | [] => some depth
  | t :: ts =>
    if t.isSymbol "(" then depth? (depth + 1) ts
    else if t.isSymbol ")" then if depth = 0 then none else depth? (depth - 1) ts
    else depth? depth ts

/-- Every parenthesis among some tokens has its partner. -/
def Paired (ts : List Token) : Prop := depth? 0 ts = some 0

instance (ts : List Token) : Decidable (Paired ts) := inferInstanceAs (Decidable (_ = _))

section Paired

variable {g : List Token}

lemma foldl_depthAfter_of_depth? {d e : Nat} (h : depth? d g = some e) :
    g.foldl depthAfter d = e := by
  induction g generalizing d with
  | nil => exact Option.some.inj h
  | cons t g ih =>
    rw [foldl_cons, depthAfter]
    rw [depth?] at h
    split_ifs at h ⊢ with hopen hclose hzero
    · exact ih h
    · exact ih h
    · exact ih h

lemma Paired.closesParens (h : Paired g) : ClosesParens g := foldl_depthAfter_of_depth? h

lemma closing?_of_depth? {d e : Nat} (h : depth? d g = some e) (y : List Token) :
    closing? (d + 1) (g ++ y) = (closing? (e + 1) y).map (g.length + ·) := by
  induction g generalizing d with
  | nil =>
    obtain rfl := Option.some.inj h
    simp
  | cons t g ih =>
    have hmap (o : Option Nat) : (o.map (g.length + ·)).map (· + 1) =
        o.map ((t :: g).length + ·) := by
      rw [Option.map_map, length_cons]
      exact congrArg (Option.map · o) (funext fun n => by simp only [Function.comp_apply]; omega)
    rw [cons_append, closing?]
    rw [depth?] at h
    by_cases hopen : t.isSymbol "("
    · rw [if_pos hopen] at h ⊢
      rw [ih h, hmap]
    rw [if_neg hopen] at h ⊢
    by_cases hclose : t.isSymbol ")"
    · rw [if_pos hclose] at h ⊢
      by_cases hzero : d = 0
      · rw [if_pos hzero] at h
        cases h
      · rw [if_neg hzero] at h
        have hdepth : d + 1 - 1 = d - 1 + 1 := by omega
        rw [hdepth, if_neg (Nat.succ_ne_zero _), ih h, hmap]
    · rw [if_neg hclose] at h ⊢
      rw [ih h, hmap]

/-- **Arguments** are read up to the parenthesis that closes them. -/
lemma closing?_paired (h : Paired g) (y : List Token) :
    closing? 0 (.symbol "(" :: (g ++ .symbol ")" :: y)) = some (g.length + 2) := by
  have hclose : closing? 1 (.symbol ")" :: y) = some 1 := rfl
  have hopen : (symbol "(").isSymbol "(" := rfl
  rw [closing?, if_pos hopen, closing?_of_depth? h, hclose]
  rfl

end Paired

/-! ## Tables of a list -/

/-- Aliases of tables: none, a word that is not reserved, or any word behind `AS`. -/
inductive IsAlias : List Token → Prop
  | none : IsAlias []
  | word {w : Word} (hw : w.quote.isSome ∨ w.isAny reserved = false) : IsAlias [.word w]
  | behindAs {a : Token} (ha : isAny ["AS"] a) (w : Word) : IsAlias [a, .word w]

/-- A table of a list: its name, its arguments if it is a function, and its alias. -/
structure ListedTable where
  first : Word
  more : List Word
  arguments : Option (List Token)
  label : List Token
  isName : first.quote.isSome ∨ first.isAny ("ONLY" :: reserved) = false
  isPart : ∀ w ∈ first :: more, isPart w
  isPaired : ∀ g ∈ arguments, Paired g
  isAlias : IsAlias label

namespace ListedTable

/-- The tokens of the arguments, with their parentheses. -/
def argumentTokens (i : ListedTable) : List Token :=
  i.arguments.elim [] fun g => .symbol "(" :: (g ++ [.symbol ")"])

/-- The tokens of a table. -/
def tokens (i : ListedTable) : List Token :=
  dotted (i.first :: i.more) ++ (i.argumentTokens ++ i.label)

/-- The name of a table. -/
def name (i : ListedTable) : String := String.ofList (dottedName (i.first :: i.more))

/-- What is recorded of a table. -/
def entry (i : ListedTable) : Collector.Entry :=
  if i.arguments.isNone then .relation (dottedName (i.first :: i.more))
  else .function (dottedName (i.first :: i.more))

end ListedTable

/-- The tokens of a list of tables, with commas between them. -/
def listTokens : List ListedTable → List Token
  | [] => []
  | [i] => i.tokens
  | i :: j :: js => i.tokens ++ .symbol "," :: listTokens (j :: js)

def EndsTable (y : List Token) : Prop := y.head?.all (·.isSymbol ",")

variable (i : ListedTable)

section Table

variable {y : List Token}

lemma EndsTable.startsWithMark (h : EndsTable y) {m : String} (hm : m ≠ ",") :
    startsWithMark m y = false := by
  cases y with
  | nil => rfl
  | cons t y =>
    have ht : t.isSymbol "," := h
    cases t with
    | symbol s =>
      obtain rfl : s = "," := beq_iff_eq.mp ht
      exact beq_eq_false_iff_ne.mpr hm.symm
    | _ => cases ht

lemma EndsTable.isWord (h : EndsTable y) : y.head?.any isWord = false := by
  cases y with
  | nil => rfl
  | cons t y =>
    have ht : t.isSymbol "," := h
    cases t with
    | symbol s => rfl
    | _ => cases ht

lemma EndsTable.startsWith (h : EndsTable y) (words : List String) :
    startsWith words y = false := by
  cases y with
  | nil => rfl
  | cons t y => exact isAny_of_not_isWord h.isWord words

/-- **An alias** is read as a whole. -/
lemma IsAlias.aliasLength_eq {l : List Token} (hl : IsAlias l) (hy : EndsTable y) :
    aliasLength (l ++ y) = l.length := by
  have hhint : hintWidth y = 0 := by
    rw [hintWidth, hy.startsWith, Bool.false_and, if_neg Bool.false_ne_true]
  have hname : aliasWidth (l ++ y) = l.length := by
    cases hl with
    | none =>
      cases y with
      | nil => rfl
      | cons t y => exact aliasWidth_of_not_isWord hy.isWord y
    | @word w hw =>
      have has : isAny ["AS"] (.word w) = false := by
        rw [eq_false_iff]
        intro has
        obtain ⟨v, hv, hquote, hupper⟩ := isAny_eq_true_iff.mp has
        obtain rfl := word.inj hv
        have hreserved : w.isAny reserved := by
          rw [Word.isAny, mem_singleton.mp hupper]
          decide
        rw [hquote, hreserved] at hw
        simp at hw
      have hfree : (w.quote.isSome || !w.isAny reserved) := by
        rw [or_eq_true, not_eq_true']
        exact hw
      simp [aliasWidth, has, hfree]
    | @behindAs a ha w => simp [aliasWidth, ha, isWord]
  rw [Harvest.aliasLength_eq, hname, drop_left, hhint, Nat.add_zero]

lemma IsAlias.startsWithMark {l : List Token} (hl : IsAlias l) (hy : EndsTable y) {m : String}
    (hm : m ≠ ",") : startsWithMark m (l ++ y) = false := by
  cases hl with
  | none => exact hy.startsWithMark hm
  | word hw => rfl
  | behindAs ha w =>
    obtain ⟨v, rfl, -, -⟩ := isAny_eq_true_iff.mp ha
    rfl

lemma tailLength_eq (hy : EndsTable y) :
    tailLength (i.argumentTokens ++ (i.label ++ y)) = (i.argumentTokens ++ i.label).length := by
  have hgroup : groupLength (i.argumentTokens ++ (i.label ++ y)) = i.argumentTokens.length := by
    rw [groupLength, ListedTable.argumentTokens]
    cases harguments : i.arguments with
    | none =>
      rw [Option.elim_none, nil_append, i.isAlias.startsWithMark hy (by decide)]
      rfl
    | some g =>
      have hclosing := closing?_paired (i.isPaired g harguments) (i.label ++ y)
      have hparen : startsWithMark "(" (.symbol "(" :: (g ++ .symbol ")" :: (i.label ++ y))) :=
        rfl
      simp only [Option.elim_some, cons_append, append_assoc, nil_append]
      rw [if_pos hparen, hclosing]
      simp
  rw [tailLength, hgroup, drop_left, i.isAlias.aliasLength_eq hy, length_append]

lemma startsWithMark_behind_name (hy : EndsTable y) {m : String} (hm : m ∉ ["(", ","]) :
    startsWithMark m (i.argumentTokens ++ (i.label ++ y)) = false := by
  rw [ListedTable.argumentTokens]
  cases i.arguments with
  | some g =>
    have hparen : m ≠ "(" := fun h => hm (by simp [h])
    exact beq_eq_false_iff_ne.mpr hparen.symm
  | none => exact i.isAlias.startsWithMark hy fun h => hm (by simp [h])

lemma addTable_eq (hy : EndsTable y) (c : Collector) :
    addTable c (dottedName (i.first :: i.more)) (i.argumentTokens ++ (i.label ++ y)) =
      c.enter i.entry := by
  rw [addTable, ListedTable.entry]
  cases harguments : i.arguments with
  | some g => simp [ListedTable.argumentTokens, harguments, startsWithMark, isSymbol, enter]
  | none =>
    rw [ListedTable.argumentTokens, harguments, Option.elim_none, nil_append,
      i.isAlias.startsWithMark hy (by decide)]
    rfl

/-- **One table of a list**, and the tables behind the comma. -/
lemma tableList_tokens (hy : EndsTable y) (rounds : Nat) (c : Collector) :
    tableList true (rounds + 1) c (i.tokens ++ y) =
      if startsWithMark "," y then
        ((tableList true rounds (c.enter i.entry) (y.drop 1)).1,
          i.tokens.length + 1 + (tableList true rounds (c.enter i.entry) (y.drop 1)).2)
      else (c.enter i.entry, i.tokens.length) := by
  have hnames : i.first.quote.isSome ∨ i.first.isAny reserved = false := by
    refine i.isName.imp_right fun h => ?_
    rw [Word.isAny, contains_eq_mem, decide_eq_false_iff_not] at h ⊢
    exact fun hmem => h (mem_cons_of_mem _ hmem)
  have htokens : i.tokens ++ y =
      dotted (i.first :: i.more) ++ (i.argumentTokens ++ (i.label ++ y)) := by
    rw [ListedTable.tokens, append_assoc, append_assoc]
  have hskip : skipLength (i.tokens ++ y) = 0 := by
    obtain ⟨ts, hts⟩ := exists_dotted i.first i.more
    have hword : isAny ["LATERAL", "ONLY"] (.word i.first) = false := by
      rw [eq_false_iff]
      intro hany
      obtain ⟨v, hv, hquote, hupper⟩ := isAny_eq_true_iff.mp hany
      obtain rfl := word.inj hv
      have hall : ∀ k ∈ ["LATERAL", "ONLY"], k ∈ "ONLY" :: reserved := by decide
      have hname := i.isName
      rw [hquote, Word.isAny, contains_iff_mem.mpr (hall _ hupper)] at hname
      simp at hname
    rw [htokens, hts, skipLength, runLength, cons_append, takeWhile_cons_of_neg (by simp [hword])]
    rfl
  have hrelation := relation?_dotted hnames (startsWithMark_behind_name i hy (m := ".") (by decide))
    (startsWithMark_behind_name i hy (m := "@") (by decide)) i.more
  have hlength : (dotted (i.first :: i.more)).length + (i.argumentTokens ++ i.label).length =
      i.tokens.length := by
    exact length_append.symm
  have hbehind : (i.argumentTokens ++ (i.label ++ y)).drop (i.argumentTokens ++ i.label).length =
      y := by
    rw [← append_assoc, drop_left]
  rw [tableList_of_some (n := (dotted (i.first :: i.more)).length) (by
    rw [hskip, drop_zero, htokens]
    exact hrelation), hskip, drop_zero, htokens, drop_left]
  simp only [tailLength_eq i hy, hbehind, addTable_eq i hy, Nat.zero_add, hlength, Bool.true_and]

end Table

/-- The tokens of tables with a comma behind each. -/
def leadTokens (items : List ListedTable) : List Token := items.flatMap (·.tokens ++ [.symbol ","])

lemma leadTokens_cons (items : List ListedTable) :
    leadTokens (i :: items) = i.tokens ++ .symbol "," :: leadTokens items := by
  rw [leadTokens, flatMap_cons, append_assoc]
  rfl

lemma listTokens_concat (items : List ListedTable) (i : ListedTable) :
    listTokens (items ++ [i]) = leadTokens items ++ i.tokens := by
  induction items with
  | nil => rfl
  | cons j items ih =>
    have hcons : listTokens (j :: (items ++ [i])) =
        j.tokens ++ .symbol "," :: listTokens (items ++ [i]) := by
      cases items <;> rfl
    rw [cons_append, hcons, ih, leadTokens_cons, append_assoc, cons_append]

/-- **The tables of a list** are read one by one. -/
lemma tableList_leadTokens (items : List ListedTable) (rounds : Nat) (c : Collector)
    (y : List Token) : tableList true (items.length + rounds) c (leadTokens items ++ y) =
      ((tableList true rounds (c.enterAll (items.map (·.entry))) y).1,
        (leadTokens items).length +
          (tableList true rounds (c.enterAll (items.map (·.entry))) y).2) := by
  induction items generalizing c with
  | nil => simp [leadTokens, enterAll]
  | cons i items ih =>
    have hcomma : EndsTable (.symbol "," :: (leadTokens items ++ y)) := rfl
    have hrounds : (i :: items).length + rounds = items.length + rounds + 1 := by
      rw [length_cons]
      omega
    have hmark : startsWithMark "," (.symbol "," :: (leadTokens items ++ y)) := rfl
    rw [hrounds, leadTokens_cons, append_assoc, cons_append, tableList_tokens i hcomma,
      if_pos hmark, drop_one, tail_cons, ih, map_cons, enterAll_cons, length_append, length_cons]
    rw [Prod.mk.injEq]
    exact ⟨rfl, by omega⟩

lemma length_le_leadTokens (items : List ListedTable) (y : List Token) :
    items.length ≤ (leadTokens items ++ y).length := by
  induction items with
  | nil => exact Nat.zero_le _
  | cons i items ih =>
    rw [leadTokens_cons]
    simp only [length_append, length_cons] at ih ⊢
    omega

lemma length_le_listTokens (items : List ListedTable) :
    items.length ≤ (listTokens items).length := by
  obtain rfl | ⟨items, i, rfl⟩ := eq_nil_or_concat items
  · exact Nat.zero_le _
  · obtain ⟨ts, hts⟩ := exists_dotted i.first i.more
    have hlead := length_le_leadTokens items []
    rw [concat_eq_append, listTokens_concat]
    simp only [append_nil, length_append, ListedTable.tokens, hts, length_cons,
      length_nil] at hlead ⊢
    omega

lemma tableList_listTokens {items : List ListedTable} {rounds : Nat}
    (hrounds : items.length < rounds) (c : Collector) : tableList true rounds c (listTokens items) =
      (c.enterAll (items.map (·.entry)), (listTokens items).length) := by
  obtain rfl | ⟨items, i, rfl⟩ := eq_nil_or_concat items
  · obtain ⟨rounds, rfl⟩ := Nat.exists_eq_succ_of_ne_zero (Nat.ne_of_gt hrounds)
    exact tableList_of_none rfl true rounds c
  · rw [length_concat] at hrounds
    obtain ⟨more, rfl⟩ : ∃ more, rounds = items.length + (more + 1) :=
      ⟨rounds - items.length - 1, by omega⟩
    have hend : EndsTable [] := rfl
    have hlast := tableList_tokens i hend more (c.enterAll (items.map (·.entry)))
    rw [append_nil] at hlast
    rw [concat_eq_append, listTokens_concat, tableList_leadTokens, hlast, map_append,
      enterAll_append, length_append]
    rfl

/-! ## The list behind `FROM` -/

lemma step_from {f : Token} (hf : isAny ["FROM"] f) (rules : Rules) (st : State)
    (ts : List Token) : step rules st none false f ts =
      ({ st with collector := (tableList true (ts.length + 1) st.collector ts).1 },
        (tableList true (ts.length + 1) st.collector ts).2) := by
  obtain ⟨w, rfl, hquote, hupper⟩ := isAny_eq_true_iff.mp hf
  have hplain : (Token.word w).plainWord? = some w := by simp [plainWord?, hquote]
  unfold step
  simp only [isSymbol, false_eq_true, if_false, hplain, mem_singleton.mp hupper,
    Bool.false_or, Option.any_none]

lemma headD_plainFlags (t : Token) (ts : List Token) :
    (plainFlags (t :: ts)).headD false = false := by
  unfold plainFlags plainFlagsFrom
  dsimp only
  split_ifs <;> rfl

lemma not_hides_entry (name : String) : ¬ i.entry.Hides name := by
  unfold ListedTable.entry
  split_ifs <;> simp [Collector.Entry.Hides, Collector.Entry.cte?, Collector.Entry.tableFunction?]

lemma relation?_entry : i.entry.relation? = if i.arguments.isNone then some i.name else none := by
  obtain ⟨htrim, hvariable⟩ := dottedName_ne_variable (cons_ne_nil i.first i.more) i.isPart
  unfold ListedTable.entry
  split_ifs
  · rw [Collector.Entry.relation?, htrim, if_neg (by simp [hvariable]),
      normal?_dottedName (cons_ne_nil i.first i.more) i.isPart, ListedTable.name]
  · rfl

lemma function?_entry : i.entry.function? = if i.arguments.isNone then none else some i.name := by
  unfold ListedTable.entry
  split_ifs
  · rfl
  · rw [Collector.Entry.function?, normal?_dottedName (cons_ne_nil i.first i.more) i.isPart,
      ListedTable.name]

lemma procedure?_entry : i.entry.procedure? = none := by
  unfold ListedTable.entry
  split_ifs <;> rfl

/-- What is reported of tables: relations and functions in the order of their first occurrence. -/
def tableUsage (items : List ListedTable) : Usage where
  relations := ⟨((items.filter (·.arguments.isNone)).map (·.name)).eraseDups⟩
  functions := ⟨((items.filter (·.arguments.isSome)).map (·.name)).eraseDups⟩

lemma finish_enterAll_entries (items : List ListedTable) :
    (enterAll {} (items.map (·.entry))).finish = tableUsage items := by
  have hrelations : (items.map (·.entry)).filterMap Collector.Entry.relation? =
      (items.filter (·.arguments.isNone)).map (·.name) := by
    rw [filterMap_map, ← filterMap_eq_map', filterMap_filter]
    exact filterMap_congr fun i _ => relation?_entry i
  have hfunctions : (items.map (·.entry)).filterMap Collector.Entry.function? =
      (items.filter (·.arguments.isSome)).map (·.name) := by
    rw [filterMap_map, ← filterMap_eq_map', filterMap_filter]
    refine filterMap_congr fun i _ => ?_
    rw [Function.comp_apply, function?_entry]
    cases i.arguments <;> rfl
  have hprocedures : (items.map (·.entry)).filterMap Collector.Entry.procedure? = [] := by
    rw [filterMap_map]
    exact filterMap_eq_nil_iff.mpr fun i _ => procedure?_entry i
  have hshown : (enterAll {} (items.map (·.entry))).finish.relations.names =
      ((items.filter (·.arguments.isNone)).map (·.name)).eraseDups := by
    rw [relations_finish_enterAll, hrelations, filter_eq_self.mpr]
    intro n _
    simpa using fun i _ => not_hides_entry i n
  rw [tableUsage, Usage.mk.injEq, ← hshown]
  refine ⟨rfl, ?_, ?_⟩
  · rw [finish, functions_enterAll, hfunctions, ← NameSet.names_insertAll_empty]
  · rw [finish, procedures_enterAll, hprocedures]
    rfl

end Harvest

open Harvest in
/-- **A list of tables is harvested completely and exactly.** The relations are the names of the
tables without arguments and the functions those of the tables with arguments, each in the order of
the first occurrences. Nothing is taken for a call of a procedure, whichever calls count. -/
theorem harvest_tables (rules : Rules) {f : Token} (hf : isAny ["FROM"] f = true)
    (items : List ListedTable) {ts : List Token} (hts : bare ts = f :: listTokens items) :
    (harvest rules {} ts).finish = tableUsage items := by
  have hlist := tableList_listTokens (Nat.lt_succ_of_le (length_le_listTokens items)) {}
  have hflags : (plainFlags (f :: listTokens items)).headD false = false := headD_plainFlags f _
  rw [harvest_eq, hts, run_cons, hflags, step_from hf, hlist]
  dsimp only
  rw [drop_length, run_nil]
  exact finish_enterAll_entries items

namespace AliasedTables

open Harvest

def items : List ListedTable :=
  [⟨⟨"emp", none⟩, [], none, [.word ⟨"e", none⟩], by decide, by decide, by decide,
    .word (by decide)⟩,
    ⟨⟨"s", none⟩, [⟨"f", none⟩], some [.word ⟨"a", none⟩, .symbol ",", .symbol "(", .symbol ")"],
      [.word ⟨"as", none⟩, .word ⟨"select", none⟩], by decide, by decide, by decide,
      .behindAs (by decide) _⟩,
    ⟨⟨"from", some '"'⟩, [⟨"t", none⟩], none, [], by decide, by decide, by decide, .none⟩,
    ⟨⟨"emp", none⟩, [], none, [], by decide, by decide, by decide, .none⟩]

def tokens : List Token :=
  [.word ⟨"FROM", none⟩, .gap, .word ⟨"emp", none⟩, .gap, .word ⟨"e", none⟩, .symbol ",", .gap,
    .word ⟨"s", none⟩, .symbol ".", .word ⟨"f", none⟩, .symbol "(", .word ⟨"a", none⟩, .symbol ",",
    .symbol "(", .symbol ")", .symbol ")", .gap, .word ⟨"as", none⟩, .gap, .word ⟨"select", none⟩,
    .symbol ",", .word ⟨"from", some '"'⟩, .symbol ".", .word ⟨"t", none⟩, .symbol ",",
    .word ⟨"emp", none⟩]

end AliasedTables

/-- Tables with aliases, one of them twice, and a function. -/
theorem harvest_tables_aliases :
    bare AliasedTables.tokens = .word ⟨"FROM", none⟩ :: Harvest.listTokens AliasedTables.items ∧
      Harvest.tableUsage AliasedTables.items =
        { relations := ⟨["emp", "from.t"]⟩, functions := ⟨["s.f"]⟩ } ∧
      (harvest ⟨true⟩ {} AliasedTables.tokens).finish = Harvest.tableUsage AliasedTables.items := by
  have htokens : bare AliasedTables.tokens =
      .word ⟨"FROM", none⟩ :: Harvest.listTokens AliasedTables.items := by decide
  exact ⟨htokens, by decide, harvest_tables ⟨true⟩ (by decide) _ htokens⟩

end SqlOutline
