import SqlOutline.Proofs.Definition.Agreement

/-!
# Types as they are spelled

The columns of a parsed table get their types from a second reading of the text. A column takes the
type of the first column there that has its name, in any letter case.

## Main definitions

* `IsSpelled` — the definition of a table whose columns are found by the second reading.

## Main results

* `convertStatement_ownTypes` — every column has its own type as it is spelled.
* `convertStatement_letterCase` — columns that differ in letter case only share a type.
-/

namespace SqlOutline

open Option List Text Sql Column

/-! ## Columns -/

/-- The items of a table that are not seen as constraints. -/
def columnItems (rest : List Lexeme) : List (List Lexeme) :=
  (tableItems rest).filter (!isTableConstraint ·)

/-- The name of a column. -/
def itemName (item : List Lexeme) : String := (item.head?.bind Lexeme.plain?).getD ""

/-- Whether an item starts with a word that constraints start with if it is seen as one, and with a
name if it is not. -/
def isNamedItem (item : List Lexeme) : Bool :=
  item.head?.any fun l => if isTableConstraint item then l.isAnyWord startWords else isPlainName l

/-- The definition of a table is cut into tokens `ts` and read as `d`, and `rest` are the lexemes
behind its name. Every column is found among the lexemes with a name and type of its own. -/
@[mk_iff]
structure IsSpelled (t : Text) (ts : List Token) (d : TableDef) (rest : List Lexeme) : Prop where
  tokens : tokens? .postgresql t = some ts
  /-- Tokens and lexemes are seen alike. -/
  marks : marksOf ts = (tokenize t).map Lexeme.mark
  create : (tokenize t).head?.any (·.isWord "CREATE")
  /-- Expressions close their parentheses, and default values show no constraint. -/
  exprs : hasTidyExprs innerGrammar (ts.filter (!·.isGap)) = true
  name : (tableName? t).any fun (chain, ls) =>
    ls == rest && (QualifiedName.ofChain? chain).isSome
  qualified : (ObjectName.qualified? d.name).isSome
  list : rest.head?.any (·.isSymbol '(')
  items : (tableItems rest).all isNamedItem
  /-- Names differ in more than their letter case. -/
  distinct : (columnItems rest).Pairwise fun a b =>
    eqIgnoreCase (itemName a).toList (itemName b).toList = false

instance (t : Text) (ts : List Token) (d : TableDef) (rest : List Lexeme) :
    Decidable (IsSpelled t ts d rest) :=
  decidable_of_iff' _ (isSpelled_iff t ts d rest)

/-! ## Constraints leave types alone -/

variable (label : ConstraintLabel) (columns : List String)

namespace Table

def types (t : Table) : List (String × Option String) :=
  t.columns.map fun c => (c.name, c.dataType)

variable (t : Table)

lemma types_labelColumn (column : String) : (t.labelColumn label column).types = t.types := by
  have hcolumns (cs : List Column) : (labelNamed label column cs).map
      (fun c => (c.name, c.dataType)) = cs.map fun c => (c.name, c.dataType) := by
    induction cs with
    | nil => rfl
    | cons c cs ih =>
      rw [labelNamed]
      split_ifs
      · rfl
      · rw [map_cons, map_cons, ih]
  exact hcolumns t.columns

lemma types_foldl_labelColumn : (columns.foldl (·.labelColumn label ·) t).types = t.types :=
  foldlRecOn (motive := fun u : Table => u.types = t.types) columns _ rfl
    fun u hu c _ => (u.types_labelColumn label c).trans hu

lemma types_addPrimaryKey : (t.addPrimaryKey columns).types = t.types := by
  refine foldlRecOn (motive := fun u : Table => u.types = t.types) columns _ rfl
    fun u hu c _ => ?_
  rw [types, columns_addKey, ← types, types_labelColumn, hu]

lemma types_addUnique : (t.addUnique columns).types = t.types := by
  unfold addUnique
  split
  · exact t.types_labelColumn _ _
  · rfl

lemma types_addColumn (column : Column) (key : Option ForeignKey) :
    (t.addColumn column key).types = t.types ++ [(column.name, column.dataType)] := by
  unfold addColumn
  split <;> simp [types, columns_addKey]

lemma types_addForeignKey (key : ForeignKey) : (t.addForeignKey key).types = t.types :=
  t.types_foldl_labelColumn _ _

lemma types_readConstraint (source : Text) (item : List Lexeme) :
    (readConstraint source item t).types = t.types := by
  have hforeign (columns : List String) :
      (readForeignKey source item columns t).types = t.types := by
    unfold readForeignKey
    split
    · rfl
    · split
      · exact t.types_addForeignKey _
      · exact t.types_foldl_labelColumn _ _
  unfold readConstraint
  split
  · rfl
  · dsimp only
    split_ifs
    · exact t.types_addPrimaryKey _
    · exact hforeign _
    · exact t.types_addUnique _
    · rfl

lemma types_convertConstraint (c : TableConstraint) : (convertConstraint t c).types = t.types := by
  unfold convertConstraint
  split
  · exact t.types_addPrimaryKey _
  · exact t.types_addUnique _
  · rfl
  · exact t.types_addForeignKey _
  · rfl

end Table

lemma Column.foldl_constrain (c : Column) (labels : List ConstraintLabel) :
    (labels.foldl constrain c).name = c.name ∧
      (labels.foldl constrain c).dataType = c.dataType := by
  refine foldlRecOn (motive := fun d : Column => d.name = c.name ∧ d.dataType = c.dataType)
    labels _ ⟨rfl, rfl⟩ fun d hd label _ => ?_
  cases label <;> exact hd

/-! ## Columns in the two readings -/

variable {items : List (List Lexeme)} {source : Text}

lemma types_readItem (source : Text) {item : List Lexeme} (h : isNamedItem item)
    (table : Table) : (readItem source table item).types = table.types ++
      ([item].filter (!isTableConstraint ·)).map fun item =>
        (itemName item, ownType? source item) := by
  unfold readItem
  cases hitem : isTableConstraint item with
  | true => simpa [hitem] using table.types_readConstraint source item
  | false =>
    match item with
    | [] => cases h
    | first :: rest =>
      rw [isNamedItem, head?_cons, any_some, if_neg (by simp [hitem]), isPlainName,
        Bool.and_eq_true] at h
      obtain ⟨name, hname⟩ := isSome_iff_exists.mp h.2
      obtain ⟨key, hread⟩ := readColumn?_eq source h.1 hname rest
      rw [if_neg (by simp), hread]
      dsimp only
      rw [Table.types_addColumn, (foldl_constrain _ _).1, (foldl_constrain _ _).2]
      simp [hitem, itemName, hname]

lemma types_foldl_readItem (source : Text) (h : ∀ item ∈ items, isNamedItem item)
    (table : Table) : (items.foldl (readItem source) table).types = table.types ++
      (items.filter (!isTableConstraint ·)).map fun item =>
        (itemName item, ownType? source item) := by
  induction items generalizing table with
  | nil => simp
  | cons item items ih =>
    rw [forall_mem_cons] at h
    rw [foldl_cons, ih h.2, types_readItem source h.1, append_assoc, ← map_append, ← filter_append]
    rfl

lemma types_convertTable? {d : TableDef} {name : QualifiedName}
    (hname : ObjectName.qualified? d.name = some name) : ∃ u, convertTable? d = some u ∧
      u.types = d.columns.map fun c => (c.name.plain?.getD "", spelling? c.dataType.text) := by
  refine ⟨_, by rw [convertTable?, hname]; rfl, ?_⟩
  have hcolumns (columns : List ColumnDef) (table : Table) :
      (columns.foldl (fun table c => table.addColumn (convertColumn c).1 (convertColumn c).2)
        table).types = table.types ++
          columns.map fun c => (c.name.plain?.getD "", spelling? c.dataType.text) := by
    induction columns generalizing table with
    | nil => simp
    | cons c columns ih =>
      rw [foldl_cons, ih, Table.types_addColumn, convertColumn, fst_foldl_convertOption,
        (foldl_constrain _ _).1, (foldl_constrain _ _).2, append_assoc]
      rfl
  refine (foldlRecOn (motive := fun u : Table => u.types = _) d.constraints _ ?_
    fun u hu c _ => (u.types_convertConstraint c).trans hu)
  exact hcolumns d.columns _

lemma forall₂_columns {parts : List TablePart} (h : List.Forall₂ IsItem items parts)
    (hnamed : ∀ item ∈ items, isNamedItem item) :
    List.Forall₂ (fun item (c : ColumnDef) => itemName item = c.name.plain?.getD "")
      (items.filter (!isTableConstraint ·)) (parts.flatMap TablePart.columns) := by
  induction h with
  | nil => exact .nil
  | @cons item part items parts hpart _ ih =>
    rw [forall_mem_cons] at hnamed
    rw [flatMap_cons]
    cases part with
    | constraint c =>
      rw [filter_cons_of_neg (by simp [(constraintMarks_of_isItem hpart).1])]
      exact ih hnamed.2
    | column c =>
      have hfirst := hnamed.1
      have hitem : isTableConstraint item = false := by
        refine isTableConstraint_of_column hpart fun h => ?_
        simpa [isNamedItem, h] using hfirst
      have hplain : item.head?.any isPlainName := by
        simpa [isNamedItem, hitem] using hfirst
      obtain ⟨name, -, hname, hc, -⟩ := exists_readColumn? [] hpart hplain
      rw [filter_cons_of_pos (by simp [hitem])]
      refine .cons ?_ (ih hnamed.2)
      rw [itemName, hname, hc]

/-! ## Types by name -/

def namedTypes (source : Text) (items : List (List Lexeme)) : List (String × String) :=
  items.filterMap fun item => (ownType? source item).map fun type => (itemName item, type)

lemma spelledTypes_eq {t : Text} {behind rest : List Lexeme} {chain : Text}
    {name : QualifiedName} (hcreate : (tokenize t).head?.any (·.isWord "CREATE"))
    (hbehind : behindWord? "TABLE" 8 (tokenize t) = some behind)
    (hname : tableName? t = some (chain, rest)) (hchain : QualifiedName.ofChain? chain = some name)
    (hlist : rest.head?.any (·.isSymbol '('))
    (hitems : ∀ item ∈ tableItems rest, isNamedItem item) :
    spelledTypes t = namedTypes t (columnItems rest) := by
  have hform (cs : List Column) :
      (cs.filterMap fun c => c.dataType.map fun type => (c.name, type)) =
        (cs.map fun c => (c.name, c.dataType)).filterMap fun (name, type) =>
          type.map fun type => (name, type) := by
    rw [filterMap_map]
    rfl
  have htypes := types_foldl_readItem t hitems
    { name, ifNotExists := startsWithWords ["IF", "NOT", "EXISTS"] behind }
  rw [spelledTypes, if_pos hcreate, readTable?_eq hbehind hname hchain hlist, map_some,
    getD_some, hform, ← Table.types, htypes, namedTypes, columnItems, Table.types,
    map_nil, nil_append, filterMap_map]
  rfl

lemma find?_namedTypes {item : List Lexeme}
    (h : items.Pairwise fun a b => eqIgnoreCase (itemName a).toList (itemName b).toList = false)
    (hitem : item ∈ items) : (namedTypes source items).find? (fun (name, _) =>
      eqIgnoreCase (itemName item).toList name.toList) =
        (ownType? source item).map fun type => (itemName item, type) := by
  induction items with
  | nil => cases hitem
  | cons a items ih =>
    rw [pairwise_cons] at h
    rw [namedTypes, filterMap_cons, ← namedTypes]
    rcases mem_cons.mp hitem with rfl | hmem
    · cases ownType? source item with
      | some type => simp [eqIgnoreCase]
      | none =>
        refine find?_eq_none.mpr fun entry hentry => ?_
        obtain ⟨b, hb, hown⟩ := mem_filterMap.mp hentry
        obtain ⟨type, -, rfl⟩ := map_eq_some_iff.mp hown
        simp [h.1 b hb]
    · have hne : eqIgnoreCase (itemName item).toList (itemName a).toList = false := by
        rw [eqIgnoreCase, BEq.comm]
        exact h.1 item hmem
      rw [← ih h.2 hmem]
      cases ownType? source a with
      | some type => exact find?_cons_of_neg (by simp [hne])
      | none => rfl

lemma Column.respell_eq (types : List (String × String)) (c : Column) :
    ((c.respell types).name, (c.respell types).dataType) =
      (c.name, ((types.find? fun (name, _) => eqIgnoreCase c.name.toList name.toList).map
        Prod.snd).or c.dataType) := by
  unfold respell isNamed
  split
  next h => rw [h]; rfl
  next h => rw [h]; rfl

lemma map_respell {columns : List ColumnDef} {table : Table}
    (hpairs : List.Forall₂ (fun item (c : ColumnDef) => itemName item = c.name.plain?.getD "")
      items columns) (hdistinct : items.Pairwise fun a b =>
      eqIgnoreCase (itemName a).toList (itemName b).toList = false) (htypes : table.types =
      columns.map fun c => (c.name.plain?.getD "", spelling? c.dataType.text)) :
    (table.columns.map (·.respell (namedTypes source items))).map
      (fun c => (c.name, c.dataType)) =
        zipWith (fun item c => (c.name.plain?.getD "",
          (ownType? source item).or (spelling? c.dataType.text))) items columns := by
  let lookup (name : String) : Option String := ((namedTypes source items).find? fun (other, _) =>
    eqIgnoreCase name.toList other.toList).map Prod.snd
  have hlookup : ∀ item ∈ items, lookup (itemName item) = ownType? source item := by
    intro item hitem
    simp only [lookup]
    rw [find?_namedTypes hdistinct hitem, Option.map_map]
    exact Option.map_id'
  calc
    _ = table.types.map fun (name, type) => (name, (lookup name).or type) := by
      rw [Table.types, List.map_map, List.map_map]
      exact map_congr_left fun c _ => c.respell_eq _
    _ = columns.map fun c => (c.name.plain?.getD "",
        (lookup (c.name.plain?.getD "")).or (spelling? c.dataType.text)) := by
      rw [htypes, List.map_map]
      rfl
    _ = _ := by
      -- The pairs keep the list in which types are looked up, so that is no part of the induction.
      clear_value lookup
      clear htypes hdistinct
      induction hpairs with
      | nil => rfl
      | @cons item c items columns hname _ ih =>
        rw [forall_mem_cons] at hlookup
        rw [map_cons, zipWith_cons_cons, ih hlookup.2, ← hname, hlookup.1]

/-- **Every column has its own type** as it is spelled, with the white space removed that does
not matter. A column with no type before the words that end one has the type that the grammar
prints. -/
theorem convertStatement_ownTypes {t : Text} {ts : List Token} {s : Sql.Statement} {d : TableDef}
    {rest : List Lexeme} (hparse : parseText? .postgresql t = some [s])
    (htree : s.tree = .createTable d) (hcolumns : d.columns ≠ []) (h : IsSpelled t ts d rest) :
    ∃ u, convertStatement s t = [.createTable u] ∧
      (columnItems rest).length = d.columns.length ∧
        u.columns.map (fun c => (c.name, c.dataType)) =
          List.zipWith (fun item c => (c.name.plain?.getD "",
            (ownType? t item).or (spelling? c.dataType.text))) (columnItems rest) d.columns := by
  have hdefinition := definitionMarks_tokenize hparse htree hcolumns h.tokens h.marks h.create
    h.exprs
  obtain ⟨⟨chain, ls⟩, hname, hrest⟩ := (any_eq_true _ _).mp h.name
  obtain ⟨rfl, hsome⟩ : ls = rest ∧ (QualifiedName.ofChain? chain).isSome := by simpa using hrest
  obtain ⟨name, hchain⟩ := isSome_iff_exists.mp hsome
  obtain ⟨behind, parts, hbehind, -, hparts, hcols, -⟩ := exists_parts hdefinition hname h.list
  have hitems := all_eq_true.mp h.items
  have hpairs := forall₂_columns hparts hitems
  rw [← hcols] at hpairs
  obtain ⟨qualified, hqualified⟩ := isSome_iff_exists.mp h.qualified
  obtain ⟨u, hu, htypes⟩ := types_convertTable? hqualified
  have hspelled := spelledTypes_eq h.create hbehind hname hchain h.list hitems
  refine ⟨{ u with columns := u.columns.map (·.respell (namedTypes t (columnItems ls))) }, ?_,
    hpairs.length_eq, ?_⟩
  · rw [convertStatement, htree, hspelled, convertTree, hu]
    rfl
  · exact map_respell hpairs h.distinct htypes

/-- A key stands between the columns, a name is a word that constraints start with, blanks are kept
and removed, and a type is a word that ends one. -/
theorem convertStatement_ownTypes_keyed :
    let t := ("CREATE TABLE s.t (\"key\" double  precision, PRIMARY KEY (\"key\"), " ++
      "n geo (point, z) NOT NULL, v CHARACTER)").toList
    let d : TableDef := {
      name := [⟨"s", none⟩, ⟨"t", none⟩]
      ifNotExists := false
      columns := [⟨⟨"key", some '"'⟩, { text := "DOUBLE PRECISION" }, []⟩,
        ⟨⟨"n", none⟩, { text := "geo(point, z)", custom := some [⟨"geo", none⟩] },
          [(none, .notNull)]⟩,
        ⟨⟨"v", none⟩, { text := "CHARACTER" }, []⟩]
      constraints := [.primaryKey [⟨"key", some '"'⟩]] }
    let ts := (tokens? .postgresql t).getD []
    let s := ((parseText? .postgresql t).getD []).headD {}
    let rest := ((tableName? t).map (·.2)).getD []
    (parseText? .postgresql t = some [s] ∧ s.tree = .createTable d ∧ d.columns ≠ [] ∧
      IsSpelled t ts d rest) ∧
    ∃ u, convertStatement s t = [.createTable u] ∧
      u.columns.map (fun c => (c.name, c.dataType)) = [("key", some "double  precision"),
        ("n", some "geo(point,z)"), ("v", some "CHARACTER")] := by
  intro t d ts s rest
  have hall : parseText? .postgresql t = some [s] ∧ s.tree = .createTable d ∧ d.columns ≠ [] ∧
      IsSpelled t ts d rest := by
    decide +kernel
  obtain ⟨hparse, htree, hcolumns, hspelled⟩ := hall
  obtain ⟨u, hu, -, htypes⟩ := convertStatement_ownTypes hparse htree hcolumns hspelled
  refine ⟨⟨hparse, htree, hcolumns, hspelled⟩, u, hu, htypes.trans ?_⟩
  decide +kernel

/-- **Two columns whose names differ in letter case only are given the same type**, which is that of
the first of them. -/
theorem convertStatement_letterCase :
    let t := "CREATE TABLE t (a INT, \"A\" TEXT)".toList
    let s := ((parseText? .postgresql t).getD []).headD {}
    parseText? .postgresql t = some [s] ∧
      convertStatement s t = [.createTable {
        name := ⟨none, "t"⟩
        ifNotExists := false
        columns := [⟨"a", some "INT", true, []⟩, ⟨"A", some "INT", true, []⟩] }] := by
  decide +kernel

end SqlOutline
