import SqlOutline.Proofs.Reference.TableList

/-!
# Queries in place of a table

A query in parentheses can stand in a list of tables. Nothing remembers that a list was being read:
behind the query, the alias, the comma and the next table are read as parts of an expression.

## Main definitions

* `DerivedTable`, `NextTable` — tables with a query behind `FROM`, and what follows it.

## Main results

* `run_nextTable` — the table behind a query gives nothing.
* `harvest_derivedTable` — a query in parentheses hides the table listed behind it.
-/

namespace SqlOutline

open Option Bool List Text Sql Body Token

variable {y g l : List Token}

namespace Harvest

variable (rules : Rules) (c : Collector) (st : State) (ws : List Word) (z : List Token)

/-! ## Parentheses of a list -/

lemma closesParens_append {x : List Token} (hx : ClosesParens x) (hy : ClosesParens y) :
    ClosesParens (x ++ y) := by
  rw [ClosesParens] at hx
  rw [ClosesParens, foldl_append, hx]
  exact hy

lemma depth?_add {d e : Nat} (h : depth? d g = some e) (n : Nat) :
    depth? (d + n) g = some (e + n) := by
  induction g generalizing d with
  | nil =>
    obtain rfl := some.inj h
    rfl
  | cons t g ih =>
    rw [depth?] at h ⊢
    split_ifs at h ⊢ with hopen hclose hzero hzero'
    · rw [← ih h, Nat.add_right_comm]
    · omega
    · rw [← ih h, Nat.sub_add_comm (by omega)]
    · exact ih h

lemma closesParens_parenthesised (h : Paired g) :
    ClosesParens (.symbol "(" :: (g ++ [.symbol ")"])) := by
  have hopen : depthAfter 0 (.symbol "(") = 1 := rfl
  rw [ClosesParens, foldl_cons, hopen, foldl_append, foldl_depthAfter_of_depth? (depth?_add h 1)]
  rfl

lemma closesParens_dotted : ClosesParens (dotted ws) := by
  induction ws with
  | nil => rfl
  | cons w ws ih =>
    cases ws with
    | nil => rfl
    | cons v vs => exact ih

lemma IsAlias.closesParens (hl : IsAlias l) : ClosesParens l := by
  cases hl with
  | none => rfl
  | word => rfl
  | behindAs ha w =>
    obtain ⟨v, rfl, -, -⟩ := isAny_eq_true_iff.mp ha
    rfl

lemma ListedTable.closesParens (i : ListedTable) : ClosesParens i.tokens := by
  have harguments : ClosesParens i.argumentTokens := by
    unfold argumentTokens
    cases hsome : i.arguments with
    | none => rfl
    | some g => exact closesParens_parenthesised (i.isPaired g hsome)
  exact closesParens_append (closesParens_dotted _)
    (closesParens_append harguments i.isAlias.closesParens)

lemma closesParens_leadTokens (items : List ListedTable) : ClosesParens (leadTokens items) := by
  induction items with
  | nil => rfl
  | cons i items ih =>
    rw [leadTokens_cons]
    exact closesParens_append i.closesParens ih

/-! ## The query -/

/-- Tables behind `FROM`, the last of them a query in parentheses. -/
structure DerivedTable where
  source : Token
  tables : List ListedTable
  query : List Token
  isFrom : isAny ["FROM"] source
  isPaired : Paired query
  /-- Behind the verb of a change, `TOP` would read over the parenthesis. -/
  ends : ∀ t ∈ query.getLast?, isAny ["TOP"] t = false

namespace DerivedTable

def queryTokens (d : DerivedTable) : List Token := d.query ++ [.symbol ")"]

/-- The tokens from `FROM` to the parenthesis behind the query. -/
def tokens (d : DerivedTable) : List Token :=
  d.source :: (leadTokens d.tables ++ .symbol "(" :: d.queryTokens)

variable (d : DerivedTable)

lemma tableList_eq (y : List Token) {rounds : Nat} (hrounds : d.tables.length < rounds) :
    tableList true rounds c (leadTokens d.tables ++ .symbol "(" :: y) =
      (c.enterAll (d.tables.map (·.entry)), (leadTokens d.tables).length) := by
  obtain ⟨more, rfl⟩ : ∃ more, rounds = d.tables.length + (more + 1) :=
    ⟨rounds - d.tables.length - 1, by omega⟩
  have hnone (c : Collector) : tableList true (more + 1) c (.symbol "(" :: y) = (c, 0) :=
    tableList_of_none rfl true more c
  rw [tableList_leadTokens, hnone]
  rfl

lemma closesParens : ClosesParens d.tokens := by
  have hsource : depthAfter 0 d.source = 0 := by
    obtain ⟨w, hw, -, -⟩ := isAny_eq_true_iff.mp d.isFrom
    rw [hw]
    rfl
  have hlist := closesParens_append (closesParens_leadTokens d.tables)
    (closesParens_parenthesised d.isPaired)
  rw [ClosesParens, tokens, foldl_cons, hsource]
  exact hlist

lemma run_eq (g : List Bool) (z : List Token) :
    run rules st none (plainFlags d.tokens ++ g) (d.tokens ++ z) =
      run rules { st with collector := st.collector.enterAll (d.tables.map (·.entry)) }
        [symbol "("].getLast?
        ((plainFlags d.tokens).drop ((leadTokens d.tables).length + 2) ++ g)
        (d.queryTokens ++ z) := by
  have hlength : (plainFlags d.tokens).length =
      (leadTokens d.tables).length + 2 + d.queryTokens.length := by
    rw [length_plainFlags, tokens]
    simp only [length_cons, length_append]
    omega
  have hfirst : (plainFlags d.tokens ++ g).headD false = false := by
    have hhead := headD_plainFlags d.source (leadTokens d.tables ++ .symbol "(" :: d.queryTokens)
    cases hflags : plainFlags d.tokens with
    | nil =>
      rw [hflags, length_nil] at hlength
      omega
    | cons b flags =>
      rw [tokens] at hflags
      rw [hflags] at hhead
      exact hhead
  have htokens : d.tokens ++ z =
      d.source :: (leadTokens d.tables ++ .symbol "(" :: (d.queryTokens ++ z)) := by
    rw [tokens, cons_append, append_assoc, cons_append]
  have htables (c : Collector) := d.tableList_eq c (d.queryTokens ++ z)
    (Nat.lt_succ_of_le (length_le_leadTokens d.tables (.symbol "(" :: (d.queryTokens ++ z))))
  rw [htokens, run_cons, hfirst, step_from d.isFrom, htables]
  dsimp only
  rw [drop_left, run_cons]
  have hparen (st : State) (before : Option Token) (plain : Bool) (ts : List Token) :
      step rules st before plain (.symbol "(") ts = (st, 0) := rfl
  rw [hparen]
  dsimp only
  rw [take_zero, drop_zero, drop_drop, drop_append_of_le_length (by omega)]
  rfl

/-- **Behind the query**, harvesting goes on as if the text had ended there. -/
lemma run_tokens_append : run rules st none (plainFlags (d.tokens ++ z)) (d.tokens ++ z) =
      run rules (run rules st none (plainFlags d.tokens) d.tokens) (some (.symbol ")"))
        (plainFlags z) z := by
  have hblind : Blind rules [.symbol "("] d.queryTokens z [] := by
    refine Blind.append ?_ (.singleton fun st plain => step_of_plainWord?_eq_none rfl rfl ..)
    exact blind_of_isMark (h := .symbol ")") (by decide) d.ends d.isPaired.closesParens
      (fun h => absurd h (by decide)) rules _
  have hlast : ∀ t ∈ d.queryTokens.getLast?, isAny ["TOP"] t = false := by
    rw [queryTokens, getLast?_concat]
    rintro t ⟨⟩
    rfl
  have hflags : ((plainFlags d.tokens).drop ((leadTokens d.tables).length + 2)).length =
      d.queryTokens.length := by
    rw [length_drop, length_plainFlags, tokens]
    simp only [length_cons, length_append]
    omega
  have hbehind : ([symbol "("] ++ d.queryTokens).getLast? = some (.symbol ")") := by
    rw [queryTokens, ← append_assoc, getLast?_concat]
  have hquery := d.run_eq rules st [] []
  simp only [append_nil] at hquery
  rw [plainFlags_append d.closesParens, d.run_eq, run_append hblind hlast _ hflags, ← hquery,
    hbehind]

end DerivedTable

/-! ## What follows the query -/

/-- What follows a query in a list of tables: its alias, a comma and the name of a table. -/
structure NextTable where
  label : List Token
  first : Word
  more : List Word
  isAlias : IsAlias label
  /-- A `MERGE` would be remembered. -/
  not_merge : ∀ t ∈ label, isAny ["MERGE"] t = false
  isName : ∀ w ∈ first :: more, w.quote = none ∧ w.isAny reserved = false
  /-- The name does not start with a word that reads what stands behind it. -/
  isOperand : isAny ("RECURSIVE" :: readingWords) (.word first) = false

variable (n : NextTable)

/-- The tokens from the alias to the table. -/
def NextTable.tokens (n : NextTable) : List Token :=
  n.label ++ .symbol "," :: dotted (n.first :: n.more)

lemma NextTable.closesParens : ClosesParens n.tokens :=
  closesParens_append n.isAlias.closesParens (closesParens_dotted (n.first :: n.more))

/-- What may stand behind a table: no arguments, no further part of its name, and no query that
would make it a common table expression. -/
structure EndsName (y : List Token) : Prop where
  marks : ∀ m ∈ ["(", ".", "@"], startsWithMark m y = false
  not_cte : (startsWith ["AS"] y && startsWithMark "(" (y.drop 1)) = false

section Next

variable (rules : Rules) (st : State) {y : List Token}

/-- **A word before a comma** gives nothing. -/
lemma step_before_comma {w : Word} (hw : isAny ["MERGE"] (.word w) = false) (before : Option Token)
    (plain : Bool) : step rules st before plain (.word w) (.symbol "," :: y) = (st, 0) := by
  have htables (commas : Bool) (n : Nat) (c : Collector) :
      tableList commas (n + 1) c (.symbol "," :: y) = (c, 0) := tableList_of_none rfl commas n c
  have hchain : chain? (.symbol "," :: y) = none := chain?_of_not_isWord rfl y
  have htarget (c : Collector) : target c (.symbol "," :: y) = (c, 0) := rfl
  have hexecute (c : Collector) : execute c (.symbol "," :: y) = (c, 0) :=
    execute_of_not_isWord rfl y c
  have hcte (c : Collector) : cte c (.symbol "," :: y) = c := rfl
  have hcall (c : Collector) : call rules c before (.word w) (.symbol "," :: y) = (c, 0) := by
    have hprocedure : callsProcedure rules w (.symbol "," :: y) = false := by
      have hends : endsStatement (.symbol "," :: y) = false := rfl
      have hparen : startsWithMark "(" (.symbol "," :: y) = false := rfl
      rw [callsProcedure, hparen, hends]
      simp
    have hparen : startsWithMark "(" (.symbol "," :: y) = false := rfl
    rw [call_word rfl rfl, hprocedure, hparen]
    simp
  unfold step
  cases hplain : (word w).plainWord? with
  | none => rfl
  | some v =>
    obtain ⟨hv, hquote⟩ := of_plainWord?_eq_some hplain
    obtain rfl := word.inj hv
    have hmerge : w.upper ≠ "MERGE" := fun h => by
      rw [isAny_eq_true_iff.mpr ⟨w, rfl, hquote, by simp [h]⟩] at hw
      cases hw
    have hsame : (⟨st.collector, st.inMerge⟩ : State) = st := rfl
    simp only [isSymbol, false_eq_true, if_false, htables, hchain, htarget, hexecute, hcte,
      hcall, elim_none, beq_eq_false_iff_ne.mpr hmerge, Bool.or_false, hsame, ite_self]
    split <;> rfl

lemma step_behind {w : Word} (hquote : w.quote = none)
    (hw : isAny readingWords (.word w) = false) {b : Token} (hb : startsBehind (some b) = false)
    (hy : ∀ m ∈ ["(", ".", "@"], startsWithMark m y = false) (ws : List Word) (plain : Bool)
    {ts : List Token} (hts : dotted (w :: ws) = .word w :: ts) :
    step rules st (some b) plain (.word w) (ts ++ y) = (st, ts.length) := by
  have hchain := chain?_dotted (hy "." (by decide)) (hy "@" (by decide)) w ws
  rw [hts, cons_append, length_cons] at hchain
  rw [step_call hquote hw]
  simp [call, hchain, hb, hy]

lemma run_label (hl : IsAlias l) (hmerge : ∀ t ∈ l, isAny ["MERGE"] t = false)
    {b : Token} (hb : startsBehind (some b) = false) (flags : List Bool) :
    run rules st (some b) flags (l ++ .symbol "," :: y) =
      run rules st (some ((b :: l).getLast (cons_ne_nil b l))) (flags.drop l.length)
        (.symbol "," :: y) := by
  cases hl with
  | none => rfl
  | word hw =>
    rw [singleton_append, run_cons, step_before_comma rules st (hmerge _ (by simp))]
    rfl
  | @behindAs a ha w =>
    obtain ⟨v, rfl, hquote, hupper⟩ := isAny_eq_true_iff.mp ha
    have hreads : isAny readingWords (.word v) = false := isAny_eq_false_of_disjoint ha (by decide)
    have hstep (plain : Bool) := step_behind rules st hquote hreads hb
      (y := .word w :: .symbol "," :: y) (fun _ _ => rfl) [] plain rfl
    rw [cons_append, run_cons]
    simp only [nil_append] at hstep
    rw [singleton_append, hstep]
    dsimp only
    rw [length_nil, take_zero, drop_zero, run_cons, step_before_comma rules st (hmerge _ (by simp))]
    simp

end Next

lemma exists_getLast?_dotted (w : Word) (ws : List Word) :
    ∃ v ∈ w :: ws, (dotted (w :: ws)).getLast? = some (.word v) := by
  induction ws generalizing w with
  | nil => exact ⟨w, by simp, rfl⟩
  | cons u us ih =>
    obtain ⟨v, hv, hlast⟩ := ih u
    refine ⟨v, mem_cons_of_mem w hv, ?_⟩
    rw [dotted, getLast?_cons_cons, getLast?_cons, hlast]
    rfl

lemma run_behind_word {v : Word} (hv : v.isAny reserved = false)
    (flags : List Bool) (y : List Token) :
    run rules st (some (.word v)) flags y = run rules st (some (.symbol ")")) flags y := by
  have hfree {words : List String} (hwords : words ⊆ reserved) : isAny words (.word v) = false := by
    rw [eq_false_iff]
    intro hany
    obtain ⟨v', hv', -, hupper⟩ := isAny_eq_true_iff.mp hany
    obtain rfl := word.inj hv'
    rw [Word.isAny, contains_iff_mem.mpr (hwords hupper)] at hv
    cases hv
  refine run_congr_before fun t x plain _ =>
    step_congr_before (fun _ => ?_) (fun _ => ?_) (fun _ c => call_congr_before ?_ c t x) st plain
  · rw [any_some, hfree (by decide)]
    rfl
  · rw [any_some, hfree (by decide)]
    rfl
  · rw [startsBehind, all_some, hfree (by decide)]
    rfl

lemma NextTable.cte_eq (hy : EndsName y) (c : Collector) :
    cte c (dotted (n.first :: n.more) ++ y) = c := by
  have hrecursive : isAny ["RECURSIVE"] (.word n.first) = false := by
    rw [eq_false_iff]
    intro hany
    have hoperand := n.isOperand
    rw [isAny_of_subset hany (by simp)] at hoperand
    cases hoperand
  cases hmore : n.more with
  | nil =>
    have hfirst : startsWith ["RECURSIVE"] (.word n.first :: y) = false := hrecursive
    simp only [dotted, singleton_append, cte, hfirst, hy.not_cte, false_eq_true, if_false]
  | cons v vs =>
    have hfirst (x : List Token) : startsWith ["RECURSIVE"] (.word n.first :: x) = false :=
      hrecursive
    have has (x : List Token) : startsWith ["AS"] (.symbol "." :: x) = false := rfl
    simp only [dotted, cons_append, cte, hfirst, has, Bool.false_and, false_eq_true, if_false]

/-- **The table behind a query gives nothing.**

**Proof sketch.** The alias stands before a comma, the comma makes nothing a common table
expression, and behind a comma no statement starts, so that the name of the table is no call. What
follows it does not see the difference between a parenthesis and a word that is not reserved. -/
lemma run_nextTable (hy : EndsName y) :
    run rules st (some (.symbol ")")) (plainFlags (n.tokens ++ y)) (n.tokens ++ y) =
      run rules st (some (.symbol ")")) (plainFlags y) y := by
  obtain ⟨ts, hts⟩ := exists_dotted n.first n.more
  have hcomma (before : Option Token) (plain : Bool) :
      step rules st before plain (.symbol ",") (.word n.first :: (ts ++ y)) = (st, 0) := by
    have hcte := n.cte_eq hy st.collector
    rw [hts, cons_append] at hcte
    have hstep : step rules st before plain (.symbol ",") (.word n.first :: (ts ++ y)) =
      ({ st with collector := cte st.collector (.word n.first :: (ts ++ y)) }, 0) := rfl
    rw [hstep, hcte]
  have hreads : isAny readingWords (.word n.first) = false := by
    rw [eq_false_iff]
    intro hany
    have hoperand := n.isOperand
    rw [isAny_of_subset hany (subset_cons_self _ _)] at hoperand
    cases hoperand
  have hquote := (n.isName n.first mem_cons_self).1
  have hname (plain : Bool) := step_behind rules st hquote hreads (b := .symbol ",") rfl hy.marks
    n.more plain hts
  have htokens : n.tokens ++ y = n.label ++ .symbol "," :: .word n.first :: (ts ++ y) := by
    rw [NextTable.tokens, hts]
    simp only [append_assoc, cons_append]
  have hflags : (plainFlags (n.tokens ++ y)).drop (n.label.length + (1 + (ts.length + 1))) =
      plainFlags y := by
    have hlength : n.label.length + (1 + (ts.length + 1)) = (plainFlags n.tokens).length := by
      rw [length_plainFlags, NextTable.tokens, hts]
      simp only [length_append, length_cons]
      omega
    rw [plainFlags_append n.closesParens, hlength, drop_left]
  obtain ⟨v, hv, hlast⟩ := exists_getLast?_dotted n.first n.more
  rw [hts, getLast?_cons] at hlast
  rw [htokens, run_label rules st n.isAlias n.not_merge rfl, ← htokens, run_cons, hcomma]
  dsimp only
  rw [take_zero, getLast?_nil, getD_none, drop_zero, run_cons, hname]
  dsimp only
  rw [take_left, some.inj hlast, drop_left, drop_drop, drop_drop, Nat.zero_add, hflags]
  exact run_behind_word rules st (n.isName v hv).2 _ y

end Harvest

open Harvest in
/-- **A query in parentheses hides the table listed behind it.** The alias of the query, the comma
and the table leave no trace, whatever follows them: harvesting gives what it gives without them.
What the query uses, and the tables listed before it, are kept. -/
theorem harvest_derivedTable (rules : Rules) (c : Collector) (d : DerivedTable) (n : NextTable)
    {rest : List Token} (hrest : EndsName rest) {ts : List Token}
    (hts : bare ts = d.tokens ++ (n.tokens ++ rest)) :
    harvest rules c ts = harvest rules c (d.tokens ++ rest) ∧
      (harvest rules c d.tokens).Reaches (harvest rules c ts) := by
  have hbare {x : List Token} (hx : x.Sublist (d.tokens ++ (n.tokens ++ rest))) : bare x = x := by
    rw [← hts] at hx
    exact filter_eq_self.mpr fun t ht => (mem_filter.mp (hx.subset ht)).2
  have hwith : harvest rules c ts =
      (run rules (run rules ⟨c, false⟩ none (plainFlags d.tokens) d.tokens)
      (some (.symbol ")")) (plainFlags rest) rest).collector := by
    rw [harvest_eq, hts, d.run_tokens_append, run_nextTable rules _ n hrest]
  have hwithout : harvest rules c (d.tokens ++ rest) = harvest rules c ts := by
    have hkept : (d.tokens ++ rest).Sublist (d.tokens ++ (n.tokens ++ rest)) :=
      (sublist_append_right n.tokens rest).append_left d.tokens
    rw [hwith, harvest_eq, hbare hkept, d.run_tokens_append]
  refine ⟨hwithout.symm, ?_⟩
  rw [hwith, harvest_eq rules c d.tokens, hbare (sublist_append_left _ _)]
  exact reaches_run rules _ _ _ _

namespace DerivedTables

open Harvest

lemma paired_of_mem_none : ∀ g ∈ (none : Option (List Token)), Paired g := by
  simp

def derived : DerivedTable where
  source := .word ⟨"from", none⟩
  tables := [⟨⟨"a", none⟩, [], none, [], by decide, by decide, paired_of_mem_none, .none⟩]
  query := [.word ⟨"select", none⟩, .word ⟨"f", none⟩, .symbol "(", .word ⟨"x", none⟩, .symbol ")",
    .word ⟨"from", none⟩, .word ⟨"b", none⟩, .word ⟨"join", none⟩, .word ⟨"c", none⟩,
    .word ⟨"on", none⟩, .word ⟨"x", none⟩, .word ⟨"in", none⟩, .symbol "(",
    .word ⟨"select", none⟩, .number "1" false, .word ⟨"from", none⟩, .word ⟨"d", none⟩, .symbol ")"]
  isFrom := by decide
  isPaired := by decide
  ends := by decide

def next : NextTable where
  label := [.word ⟨"as", none⟩, .word ⟨"q", none⟩]
  first := ⟨"s", none⟩
  more := [⟨"t", none⟩]
  isAlias := .behindAs (by decide) _
  not_merge := by decide
  isName := by decide
  isOperand := by decide

def rest : List Token :=
  [.word ⟨"join", none⟩, .word ⟨"e", none⟩, .word ⟨"on", none⟩, .word ⟨"true", none⟩]

def tokens : List Token :=
  [.word ⟨"FROM", none⟩, .gap, .symbol "(", .word ⟨"SELECT", none⟩, .gap, .word ⟨"a", none⟩, .gap,
    .word ⟨"FROM", none⟩, .gap, .word ⟨"b", none⟩, .symbol ")", .gap, .word ⟨"x", none⟩,
      .symbol ",",
    .gap, .word ⟨"t", none⟩]

end DerivedTables

open Harvest in
/-- The table `s.t` listed behind a query is missing, the tables around it are there. -/
theorem harvest_derivedTable_next :
    let ts := DerivedTables.derived.tokens ++ (DerivedTables.next.tokens ++ DerivedTables.rest)
    bare ts = ts ∧ EndsName DerivedTables.rest ∧
      harvest {} {} ts = harvest {} {} (DerivedTables.derived.tokens ++ DerivedTables.rest) ∧
      (harvest {} {} DerivedTables.derived.tokens).Reaches (harvest {} {} ts) ∧
      (harvest {} {} ts).finish.relations = ⟨["a", "b", "c", "d", "e"]⟩ := by
  have hbare :
      bare (DerivedTables.derived.tokens ++ (DerivedTables.next.tokens ++ DerivedTables.rest)) =
      DerivedTables.derived.tokens ++ (DerivedTables.next.tokens ++ DerivedTables.rest) := by decide
  have hrest : EndsName DerivedTables.rest := ⟨by decide, by decide⟩
  have hhidden := harvest_derivedTable {} {} DerivedTables.derived DerivedTables.next hrest hbare
  exact ⟨hbare, hrest, hhidden.1, hhidden.2, by decide +kernel⟩

/-- The second table of `FROM (SELECT a FROM b) x, t` is not recorded. -/
theorem relations_behind_query :
    tokens? .postgresql "FROM (SELECT a FROM b) x, t".toList = some DerivedTables.tokens ∧
      (harvest {} {} DerivedTables.tokens).finish.relations = ⟨["b"]⟩ := by
  exact ⟨by decide +kernel, by decide +kernel⟩

end SqlOutline
