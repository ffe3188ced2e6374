import SqlOutline.Proofs.Definition.DefinitionMarks
import SqlOutline.Proofs.Definition.Items
import SqlOutline.Proofs.Name.Simple

/-!
# The two readings of a table

A table is read from the tree of its definition if a grammar accepts that, and from its lexemes
otherwise.

## Main definitions

* `IsPlain` — lexemes and tokens are seen alike, the words that constraints start with do not stand
  where names do, and no key stands before a column that it names.

## Main results

* `readTable?_agrees_convertTable?` — the two readings of a plain definition agree.
* `readTable?_disagrees_convertTable?` — those of a definition with a check do not.
-/

namespace SqlOutline

open List Text Sql Lexeme

/-! ## Plain definitions -/

/-- The name of a table as it is written, and the lexemes behind it. -/
def tableName? (source : Text) : Option (Text × List Lexeme) := do
  let behind ← behindWord? "TABLE" 8 (tokenize source)
  let ifNotExists := startsWithWords ["IF", "NOT", "EXISTS"] behind
  readChain? source (if ifNotExists then behind.drop 3 else behind)

/-- The items of a table, where the lexemes behind its name are given. -/
def tableItems (rest : List Lexeme) : List (List Lexeme) := splitTopLevel (bracketed rest).1

/-- The definition of a table is plain: it is cut into tokens `ts` and read as `d`, and `rest` are
the lexemes behind its name. -/
@[mk_iff]
structure IsPlain (t : Text) (ts : List Token) (d : TableDef) (rest : List Lexeme) : Prop where
  tokens : tokens? .postgresql t = some ts
  /-- Tokens and lexemes are seen alike. -/
  marks : marksOf ts = (tokenize t).map mark
  create : (tokenize t).head?.any (·.isWord "CREATE")
  /-- Expressions close their parentheses, and default values show no constraint. -/
  exprs : hasTidyExprs innerGrammar (ts.filter (!·.isGap)) = true
  /-- The name is written without blanks. -/
  name : tableName? t = some ((ObjectName.text d.name).toList, rest)
  simple : d.name.all Ident.isSimple
  /-- The columns follow the name. -/
  list : rest.head?.any (·.isSymbol '(')
  items : (tableItems rest).all isPlainItem
  /-- No key stands before a column that it names. -/
  order : (tableItems rest).Pairwise fun a b => mayPrecede t a b

instance (t : Text) (ts : List Token) (d : TableDef) (rest : List Lexeme) :
    Decidable (IsPlain t ts d rest) :=
  decidable_of_iff' _ (isPlain_iff t ts d rest)

/-! ## Names -/

variable {rest ls : List Lexeme} {behind ns : List Mark} {t source chain : Text} {n : ObjectName}
  {items : List (List Lexeme)} {part : TablePart} {parts : List TablePart} {d : TableDef}

lemma map_mark_drop_chainLength (h : NameMarks n ns)
    {first : Lexeme} (hmarks : (first :: rest).map mark = ns ++ behind)
    (hbehind : behind.head? ≠ some (.symbol '.'))
    (hopen : (rest.drop (chainLength rest)).head?.any (·.isSymbol '(')) :
    (rest.drop (chainLength rest)).map mark = behind := by
  induction h generalizing first rest with
  | last _ =>
    obtain rfl : rest.map mark = behind := (cons.inj hmarks).2
    have hzero : chainLength rest = 0 := by
      match rest with
      | [] | [_] => rfl
      | dot :: name :: rest =>
        rw [chainLength, if_neg]
        rw [Bool.and_eq_true, not_and]
        intro hdot
        refine absurd (congrArg some ?_) hbehind
        exact (dot.mark_eq_symbol_iff (by decide)).mpr hdot
    rw [hzero, drop_zero]
  | @cons i n m ms _ hname ih =>
    obtain ⟨-, hrest⟩ := cons.inj hmarks
    obtain ⟨dot, rest, rfl, hdot, hrest⟩ := map_eq_cons_iff.mp hrest
    have hsymbol := isSymbol_of_mark (by decide) hdot
    obtain ⟨name, rest, rfl⟩ : ∃ name tail, rest = name :: tail := by
      refine exists_cons_of_ne_nil ?_
      rintro rfl
      cases hname <;> cases hrest
    by_cases hisName : name.isName
    · have hlength : chainLength (dot :: name :: rest) = chainLength rest + 2 := by
        rw [chainLength, if_pos (by rw [hsymbol, hisName]; rfl), Nat.add_comm]
      rw [hlength, drop_succ_cons, drop_succ_cons] at hopen ⊢
      exact ih hrest hopen
    · -- A name that is none ends the chain, and a dot follows it.
      have hzero : chainLength (dot :: name :: rest) = 0 := by
        rw [chainLength, if_neg (by simp [hisName])]
      rw [hzero, drop_zero, head?_cons, Option.any_some,
        ← dot.mark_eq_symbol_iff (by decide), hdot] at hopen
      cases hopen

lemma map_mark_of_readChain? {between : List Mark} (hn : NameMarks n ns) (hbetween : Worded between)
    (hmarks : ls.map mark = ns ++ (between ++ .symbol '(' :: behind))
    (h : readChain? source ls = some (chain, rest))
    (hlist : rest.head?.any (·.isSymbol '(')) : rest.map mark = .symbol '(' :: behind := by
  cases ls with
  | nil => cases h
  | cons first ls =>
    rw [readChain?] at h
    split at h
    · obtain ⟨-, rfl⟩ := Prod.mk.inj (Option.some.inj h)
      have hdot : (between ++ .symbol '(' :: behind).head? ≠ some (.symbol '.') := by
        cases between with
        | nil => simp
        | cons m between =>
          have hm : m.isName := hbetween m rfl
          rintro ⟨⟩
          cases hm
      have hrest := map_mark_drop_chainLength hn hmarks hdot hlist
      cases between with
      | nil => exact hrest
      | cons m between =>
        obtain ⟨first, rest, hcons, rfl, -⟩ := map_eq_cons_iff.mp hrest
        have hm : first.mark.isName := hbetween first.mark rfl
        rw [hcons, head?_cons, Option.any_some, ← first.mark_eq_symbol_iff (by decide)] at hlist
        rw [hlist] at hm
        cases hm
    · cases h

lemma PartMarks.ne_nil {ms : List Mark} (h : PartMarks part ms) : ms ≠ [] := by
  cases h with
  | column _ _ _ => simp
  | constraint hc =>
    obtain ⟨m, rest, k, rfl, -⟩ := hc.exists_word
    simp
  | named _ _ => simp

lemma filter_items (h : List.Forall₂ IsItem items parts) : items.filter (!·.isEmpty) = items := by
  induction h with
  | nil => rfl
  | @cons item part items parts hpart _ ih =>
    have hitem : item ≠ [] := by
      rintro rfl
      exact hpart.ne_nil rfl
    rw [filter_cons_of_pos (by simpa using hitem), ih]

lemma forall₂_tableItems {items : List Mark} (h : PartListMarks parts items)
    (hrest : rest.map mark = .symbol '(' :: (items ++ .symbol ')' :: behind)) :
    List.Forall₂ IsItem (tableItems rest) parts := by
  obtain ⟨first, ls, rfl, hfirst, hls⟩ := map_eq_cons_iff.mp hrest
  obtain ⟨inner, ls, rfl, hinner, hls⟩ := map_eq_append_iff.mp hls
  obtain ⟨last, ls, rfl, hlast, -⟩ := map_eq_cons_iff.mp hls
  obtain ⟨hnesting, hitems⟩ := exists_items h hinner
  have hbracketed := bracketed_eq (isSymbol_of_mark (by decide) hfirst) (hinner ▸ hnesting)
    (isSymbol_of_mark (by decide) hlast) ls
  rw [tableItems, hbracketed, splitTopLevel, filter_items hitems]
  exact hitems

lemma definitionMarks_tokenize {ts : List Token} {s : Sql.Statement}
    (hparse : parseText? .postgresql t = some [s]) (htree : s.tree = .createTable d)
    (hcolumns : d.columns ≠ []) (htokens : tokens? .postgresql t = some ts)
    (hmarks : marksOf ts = (tokenize t).map mark)
    (hcreate : (tokenize t).head?.any (·.isWord "CREATE"))
    (hexprs : hasTidyExprs innerGrammar (ts.filter (!·.isGap)) = true) :
    DefinitionMarks d ((tokenize t).map mark) := by
  rw [parseText?, htokens, Option.bind_some] at hparse
  rw [← hmarks]
  refine definitionMarks_of_parse hparse htree hcolumns hexprs ?_
  rw [hmarks]
  cases hls : tokenize t with
  | nil => simp [hls] at hcreate
  | cons l ls =>
    rw [hls] at hcreate
    exact (l.isWord_mark (by decide)).trans hcreate

lemma exists_parts (h : DefinitionMarks d ((tokenize t).map mark))
    (hname : tableName? t = some (chain, rest)) (hlist : rest.head?.any (·.isSymbol '(')) :
    ∃ behind parts, behindWord? "TABLE" 8 (tokenize t) = some behind ∧
      startsWithWords ["IF", "NOT", "EXISTS"] behind = d.ifNotExists ∧
        List.Forall₂ IsItem (tableItems rest) parts ∧
          d.columns = parts.flatMap TablePart.columns ∧
            d.constraints = parts.flatMap TablePart.constraints := by
  obtain ⟨header, m, ms, hmarks, hheader, hm, hine, words, name, between, parts, items, tail, rfl,
    hwords, hnameMarks, hbetween, hparts, hcolumns, hconstraints⟩ := h
  obtain ⟨behind, hbehind, hchain⟩ := Option.bind_eq_some_iff.mp hname
  obtain ⟨front, ls₁, htokens, rfl, h₁⟩ := map_eq_append_iff.mp hmarks
  obtain ⟨table, ls, rfl, rfl, hls⟩ := map_eq_cons_iff.mp h₁
  obtain rfl : behind = ls := by
    have hfront : ∀ l ∈ front, l.isWord "TABLE" = false := fun l hl => by
      rw [← l.isWord_mark (by decide)]
      exact hheader l.mark (mem_map_of_mem hl)
    have htable : table.isWord "TABLE" := by
      rw [← table.isWord_mark (by decide)]
      exact hm
    rw [htokens, behindWord?_append hfront htable, Option.ite_none_right_eq_some] at hbehind
    exact (Option.some.inj hbehind.2).symm
  have hexists : startsWithWords ["IF", "NOT", "EXISTS"] behind = d.ifNotExists := by
    rw [startsWithWords_eq (by decide), hls, hine]
  refine ⟨behind, parts, hbehind, hexists, ?_, hcolumns, hconstraints⟩
  have hdrop : (if d.ifNotExists then behind.drop 3 else behind).map mark =
      name ++ (between ++ .symbol '(' :: (items ++ .symbol ')' :: tail)) := by
    cases hd : d.ifNotExists with
    | true =>
      rw [hd, if_pos rfl] at hwords
      rw [if_pos rfl, map_drop, hls, ← hwords, drop_left]
    | false =>
      rw [hd, if_neg (by simp), length_eq_zero_iff] at hwords
      rw [if_neg (by simp), hls, hwords, nil_append]
  dsimp only at hchain
  rw [hexists] at hchain
  exact forall₂_tableItems hparts (map_mark_of_readChain? hnameMarks hbetween hdrop hchain hlist)

/-! ## Agreement -/

lemma outline_foldl_readItem (source : Text) (h : List.Forall₂ IsItem items parts)
    (hplain : ∀ item ∈ items, isPlainItem item) (table : Table) :
    (items.foldl (readItem source) table).outline = parts.foldl Table.addPart table.outline := by
  induction h generalizing table with
  | nil => rfl
  | cons hpart _ ih =>
    rw [forall_mem_cons] at hplain
    rw [foldl_cons, foldl_cons, ih hplain.2, outline_readItem source hpart hplain.1]

lemma exists_item (h : List.Forall₂ IsItem items parts)
    (hpart : part ∈ parts) : ∃ item ∈ items, IsItem item part := by
  induction h with
  | nil => cases hpart
  | cons hfirst _ ih =>
    rcases mem_cons.mp hpart with rfl | hpart
    · exact ⟨_, mem_cons_self, hfirst⟩
    · obtain ⟨item, hitem, hmarks⟩ := ih hpart
      exact ⟨item, mem_cons_of_mem _ hitem, hmarks⟩

lemma pairwise_mayPrecede (h : List.Forall₂ IsItem items parts)
    (hplain : ∀ item ∈ items, isPlainItem item)
    (horder : items.Pairwise fun a b => mayPrecede source a b) :
    parts.Pairwise TablePart.MayPrecede := by
  induction h with
  | nil => exact .nil
  | @cons item part items parts hpart hparts ih =>
    rw [forall_mem_cons] at hplain
    rw [pairwise_cons] at horder ⊢
    refine ⟨fun q hq => ?_, ih hplain.2 horder.2⟩
    obtain ⟨b, hb, hmarks⟩ := exists_item hparts hq
    exact mayPrecede_of_items hpart hmarks hplain.1 (hplain.2 b hb) (horder.1 b hb)

lemma readTable?_eq {behind : List Lexeme} {name : QualifiedName}
    (hbehind : behindWord? "TABLE" 8 (tokenize t) = some behind)
    (hname : tableName? t = some (chain, rest)) (hchain : QualifiedName.ofChain? chain = some name)
    (hlist : rest.head?.any (·.isSymbol '(')) :
    readTable? t (tokenize t) = some ((tableItems rest).foldl (readItem t)
      { name, ifNotExists := startsWithWords ["IF", "NOT", "EXISTS"] behind }) := by
  rw [tableName?, hbehind] at hname
  replace hname : readChain? t (if startsWithWords ["IF", "NOT", "EXISTS"] behind then behind.drop 3
    else behind) = some (chain, rest) := hname
  simp [readTable?, hbehind, readName?, hname, hchain, hlist, tableItems]

lemma Table.eq_of_outline_eq {u v : Table} (h : u.outline = v.outline) :
    u.name = v.name ∧ u.ifNotExists = v.ifNotExists ∧
      u.columns.map (fun c => (c.name, c.nullable, c.labels)) =
        v.columns.map (fun c => (c.name, c.nullable, c.labels)) ∧
          u.primaryKeys = v.primaryKeys := by
  have hcolumns (t : Table) : t.outline.columns.map (fun c => (c.name, c.nullable, c.labels)) =
      t.columns.map (fun c => (c.name, c.nullable, c.labels)) := by
    rw [Table.outline, map_map]
    rfl
  have hname : u.outline.name = v.outline.name := by rw [h]
  have hexists : u.outline.ifNotExists = v.outline.ifNotExists := by rw [h]
  have hkeys : u.outline.primaryKeys = v.outline.primaryKeys := by rw [h]
  refine ⟨hname, hexists, ?_, hkeys⟩
  rw [← hcolumns u, ← hcolumns v, h]

/-- **The two readings of a plain definition agree**: the name of the table and its schema, whether
it may exist, the names of its columns with the constraints on them, and its primary key. -/
theorem readTable?_agrees_convertTable? {t : Text} {ts : List Token} {s : Sql.Statement}
    {d : TableDef} {rest : List Lexeme} (hparse : parseText? .postgresql t = some [s])
    (htree : s.tree = .createTable d) (hcolumns : d.columns ≠ []) (hplain : IsPlain t ts d rest) :
    ∃ u v, convertTable? d = some u ∧ readTable? t (tokenize t) = some v ∧ u.name = v.name ∧
      u.ifNotExists = v.ifNotExists ∧
        u.columns.map (fun c => (c.name, c.nullable, c.labels)) =
          v.columns.map (fun c => (c.name, c.nullable, c.labels)) ∧
            u.primaryKeys = v.primaryKeys := by
  have hdefinition := definitionMarks_tokenize hparse htree hcolumns hplain.tokens hplain.marks
    hplain.create hplain.exprs
  obtain ⟨behind, parts, hbehind, hexists, hparts, hcols, hcons⟩ :=
    exists_parts hdefinition hplain.name hplain.list
  obtain ⟨name, hchain, hname⟩ :=
    ofChain?_text hdefinition.name_ne_nil (all_eq_true.mp hplain.simple)
  obtain ⟨u, hu, huOutline⟩ := outline_convertTable? hname
  refine ⟨u, _, hu, readTable?_eq hbehind hplain.name hchain hplain.list, ?_⟩
  apply Table.eq_of_outline_eq
  have hitems := all_eq_true.mp hplain.items
  have horder := pairwise_mayPrecede hparts hitems hplain.order
  rw [outline_foldl_readItem t hparts hitems, foldl_addPart horder, ← hcols, ← hcons, hexists,
    huOutline]
  rfl

/-- A table with a quoted name, a default value, and a key and a check before another column. -/
theorem readTable?_agrees_convertTable?_keyed :
    let t := ("CREATE TEMP TABLE IF NOT EXISTS s.\"T\" (a INT NOT NULL DEFAULT c, " ++
      "PRIMARY KEY (a), CHECK (a > b), b INT REFERENCES u ON DELETE SET NULL)").toList
    let d : TableDef := {
      name := [⟨"s", none⟩, ⟨"T", some '"'⟩]
      ifNotExists := true
      columns := [⟨⟨"a", none⟩, { text := "INT" }, [(none, .notNull), (none, .other)]⟩,
        ⟨⟨"b", none⟩, { text := "INT" },
          [(none, .references ⟨[⟨"u", none⟩], [], some .setNull, none⟩)]⟩]
      constraints := [.primaryKey [⟨"a", none⟩], .other] }
    let ts := (tokens? .postgresql t).getD []
    let s := ((parseText? .postgresql t).getD []).headD {}
    let rest := ((tableName? t).map (·.2)).getD []
    (parseText? .postgresql t = some [s] ∧ s.tree = .createTable d ∧ d.columns ≠ [] ∧
      IsPlain t ts d rest) ∧
    ∃ u v, convertTable? d = some u ∧ readTable? t (tokenize t) = some v ∧ u.name = v.name ∧
      u.ifNotExists = v.ifNotExists ∧
        u.columns.map (fun c => (c.name, c.nullable, c.labels)) =
          v.columns.map (fun c => (c.name, c.nullable, c.labels)) ∧
            u.primaryKeys = v.primaryKeys := by
  intro t d ts s rest
  have hall : parseText? .postgresql t = some [s] ∧ s.tree = .createTable d ∧ d.columns ≠ [] ∧
      IsPlain t ts d rest := by
    decide +kernel
  obtain ⟨hparse, htree, hcolumns, hplain⟩ := hall
  exact ⟨⟨hparse, htree, hcolumns, hplain⟩,
    readTable?_agrees_convertTable? hparse htree hcolumns hplain⟩

/-- **The readings of a definition with a check do not agree**: the lexemes of the check say that
the column cannot be null, and the tree does not. -/
theorem readTable?_disagrees_convertTable? :
    let t := "CREATE TABLE t (a INT CHECK (a IS NOT NULL))".toList
    let d : TableDef := {
      name := [⟨"t", none⟩]
      ifNotExists := false
      columns := [⟨⟨"a", none⟩, { text := "INT" }, [(none, .other)]⟩]
      constraints := [] }
    (parseText? .postgresql t).map (·.map (·.tree)) = some [.createTable d] ∧
      (convertTable? d).map (·.columns) = some [⟨"a", some "INT", true, []⟩] ∧
        (readTable? t (tokenize t)).map (·.columns) =
          some [⟨"a", some "INT", false, [.notNull]⟩] := by
  decide +kernel

end SqlOutline
