import Mathlib.Data.List.Nodup
import Mathlib.Data.List.Sublists
import SqlOutline.Analysis

/-!
# Tables are well formed

Each of the steps by which a table is built keeps it well formed.

## Main definitions

* `Table.WellFormed`, `Operation.WellFormed` — well-formed tables and operations.

## Main results

* `readTable?_wellFormed`, `convertStatement_wellFormed` — tables read in either way.
* `statementFindings_wellFormed` — tables and their changes are well formed.
-/

namespace SqlOutline

open Option List Text ConstraintLabel Column

/-! ## Labels -/

namespace ConstraintLabel

/-- All constraints on a column, in the order in which they are reported. -/
def all : List ConstraintLabel := [.notNull, .unique, .primaryKey, .foreignKey]

lemma insert_sublist {ls : List ConstraintLabel} (h : ls.Sublist all) (label : ConstraintLabel) :
    (insert label ls).Sublist all := by
  have hall : ∀ ls ∈ all.sublists, ∀ label ∈ all, insert label ls ∈ all.sublists := by decide
  have hlabel : label ∈ all := by cases label <;> decide
  exact mem_sublists.mp (hall ls (mem_sublists.mpr h) label hlabel)

end ConstraintLabel

/-! ## Columns -/

namespace Column

/-- The constraints on a column stand in their order, none twice, and the column cannot be null
exactly if one of them says so. -/
structure WellFormed (c : Column) : Prop where
  labels_sublist : c.labels.Sublist all
  nullable_iff : c.nullable = false ↔ .notNull ∈ c.labels

variable {c : Column} {cs : List Column} {label : ConstraintLabel}

lemma wellFormed_bare (name : String) (dataType : Option String) :
    WellFormed { name, dataType } where
  labels_sublist := nil_sublist _
  nullable_iff := by simp

lemma WellFormed.addLabel (h : c.WellFormed) (hlabel : label ≠ .notNull) :
    (c.addLabel label).WellFormed where
  labels_sublist := insert_sublist h.labels_sublist label
  nullable_iff := by
    change c.nullable = false ↔ .notNull ∈ label.insert c.labels
    rw [mem_insert, h.nullable_iff, or_iff_right hlabel.symm]

lemma WellFormed.forbidNull (h : c.WellFormed) : c.forbidNull.WellFormed where
  labels_sublist := insert_sublist h.labels_sublist .notNull
  nullable_iff := by simp [Column.forbidNull, Column.addLabel]

lemma WellFormed.respell (h : c.WellFormed) (types : List (String × String)) :
    (c.respell types).WellFormed := by
  unfold Column.respell
  split
  · exact ⟨h.labels_sublist, h.nullable_iff⟩
  · exact h

/-- What a column that gets a constraint by its name can be: one that was there, or one that has
the name with the constraint added. -/
lemma mem_labelNamed {name : String} {d : Column} (h : d ∈ labelNamed label name cs) :
    d ∈ cs ∨ ∃ c ∈ cs, c.isNamed name ∧ d = c.addLabel label := by
  induction cs with
  | nil => cases h
  | cons c cs ih =>
    by_cases hnamed : c.isNamed name
    · rw [labelNamed, if_pos hnamed] at h
      rcases mem_cons.mp h with rfl | h
      · exact .inr ⟨c, mem_cons_self, hnamed, rfl⟩
      · exact .inl (mem_cons_of_mem _ h)
    · rw [labelNamed, if_neg hnamed] at h
      rcases mem_cons.mp h with rfl | h
      · exact .inl mem_cons_self
      · rcases ih h with h | ⟨e, he, hname, heq⟩
        · exact .inl (mem_cons_of_mem _ h)
        · exact .inr ⟨e, mem_cons_of_mem _ he, hname, heq⟩

end Column

/-! ## Tables -/

namespace Table

/-- The columns of a table are well formed, and those that are labelled as its primary key are in
the list of the primary key under their names, in any letter case. The list has no column twice. -/
structure WellFormed (t : Table) : Prop where
  columns : ∀ c ∈ t.columns, c.WellFormed
  nodup : t.primaryKeys.Nodup
  keyed : ∀ c ∈ t.columns, .primaryKey ∈ c.labels →
    ∃ k ∈ t.primaryKeys, eqIgnoreCase c.name.toList k.toList

variable {t : Table}

lemma wellFormed_bare (name : QualifiedName) (ifNotExists : Bool) :
    WellFormed { name, ifNotExists } :=
  ⟨by simp, .nil, by simp⟩

lemma mem_addKey (t : Table) (column k : String) :
    k ∈ (t.addKey column).primaryKeys ↔ k = column ∨ k ∈ t.primaryKeys := by
  unfold addKey
  split
  next h =>
    refine ⟨.inr, ?_⟩
    rintro (rfl | hk)
    · exact contains_iff_mem.mp h
    · exact hk
  next => rw [mem_append, mem_singleton, or_comm]

lemma columns_addKey (t : Table) (column : String) : (t.addKey column).columns = t.columns := by
  unfold addKey
  split <;> rfl

lemma WellFormed.addKey (h : t.WellFormed) (column : String) : (t.addKey column).WellFormed where
  columns := by
    rw [columns_addKey]
    exact h.columns
  nodup := by
    unfold Table.addKey
    split
    next => exact h.nodup
    next hnew =>
      refine nodup_append.mpr ⟨h.nodup, nodup_singleton column, ?_⟩
      rintro k hk _ hcolumn rfl
      rw [mem_singleton.mp hcolumn] at hk
      exact hnew (contains_iff_mem.mpr hk)
  keyed := by
    intro c hc hkey
    rw [columns_addKey] at hc
    obtain ⟨k, hk, hname⟩ := h.keyed c hc hkey
    exact ⟨k, (mem_addKey t column k).mpr (.inr hk), hname⟩

/-- A constraint on a named column, if it is none about null and the name is in the list of the
primary key should the constraint be that one. -/
lemma WellFormed.labelColumn (h : t.WellFormed) {label : ConstraintLabel} {column : String}
    (hnull : label ≠ .notNull) (hkey : label = .primaryKey → column ∈ t.primaryKeys) :
    (t.labelColumn label column).WellFormed where
  columns := by
    intro d hd
    rcases mem_labelNamed hd with hd | ⟨c, hc, -, rfl⟩
    · exact h.columns d hd
    · exact (h.columns c hc).addLabel hnull
  nodup := h.nodup
  keyed := by
    intro d hd hlabel
    rcases mem_labelNamed hd with hd | ⟨c, hc, hname, rfl⟩
    · exact h.keyed d hd hlabel
    · rcases (mem_insert _ _ _).mp hlabel with heq | hmem
      · exact ⟨column, hkey heq.symm, hname⟩
      · exact h.keyed c hc hmem

lemma addKey_labelColumn (t : Table) (label : ConstraintLabel) (column key : String) :
    (t.labelColumn label column).addKey key = (t.addKey key).labelColumn label column := by
  unfold addKey labelColumn
  split <;> rfl

lemma WellFormed.addColumn (h : t.WellFormed) {column : Column} (hc : column.WellFormed)
    (key : Option ForeignKey) : (t.addColumn column key).WellFormed := by
  set u := if column.labels.contains .primaryKey then t.addKey column.name else t with hu
  have hwell : u.WellFormed := by
    rw [hu]
    split
    · exact h.addKey column.name
    · exact h
  refine ⟨?_, hwell.nodup, ?_⟩
  · intro d hd
    rcases mem_append.mp hd with hd | hd
    · exact hwell.columns d hd
    · rwa [mem_singleton.mp hd]
  · intro d hd hlabel
    rcases mem_append.mp hd with hd | hd
    · exact hwell.keyed d hd hlabel
    · obtain rfl := mem_singleton.mp hd
      have hmem : d.name ∈ u.primaryKeys := by
        rw [hu, if_pos (contains_iff_mem.mpr hlabel), mem_addKey]
        exact .inl rfl
      exact ⟨d.name, hmem, by simp [eqIgnoreCase]⟩

lemma WellFormed.addPrimaryKey (h : t.WellFormed) (columns : List String) :
    (t.addPrimaryKey columns).WellFormed := by
  refine foldlRecOn columns _ h fun t h column _ => ?_
  rw [addKey_labelColumn]
  have hmem : column ∈ (t.addKey column).primaryKeys := (mem_addKey t column column).mpr (.inl rfl)
  exact (h.addKey column).labelColumn (by decide) fun _ => hmem

lemma WellFormed.labelColumns (h : t.WellFormed) (columns : List String) :
    (columns.foldl (·.labelColumn .foreignKey ·) t).WellFormed :=
  foldlRecOn columns _ h fun _ h _ _ => h.labelColumn (by decide) (by simp)

lemma WellFormed.addForeignKey (h : t.WellFormed) (key : ForeignKey) :
    (t.addForeignKey key).WellFormed := by
  have hlabels := h.labelColumns key.columns
  exact ⟨hlabels.columns, hlabels.nodup, hlabels.keyed⟩

lemma WellFormed.addUnique (h : t.WellFormed) (columns : List String) :
    (t.addUnique columns).WellFormed := by
  unfold Table.addUnique
  split
  · exact h.labelColumn (by decide) (by simp)
  · exact h

end Table

/-! ## Parsed definitions -/

open Sql in
lemma convertColumn_wellFormed (d : ColumnDef) : (convertColumn d).1.WellFormed := by
  refine foldlRecOn (motive := fun state : Column × _ => state.1.WellFormed) d.options _
    (wellFormed_bare _ _) fun ⟨c, key⟩ h o _ => ?_
  unfold convertOption
  dsimp only at h ⊢
  split
  · exact h.forbidNull
  · exact h.addLabel (by decide)
  · exact h.addLabel (by decide)
  · exact h.addLabel (by decide)
  · exact h

open Sql in
lemma convertConstraint_wellFormed {t : Table} (h : t.WellFormed) (k : TableConstraint) :
    (convertConstraint t k).WellFormed := by
  unfold convertConstraint
  split
  · exact h.addPrimaryKey _
  · exact h.addUnique _
  · exact h
  · exact h.addForeignKey _
  · exact h

open Sql in
lemma convertTable?_wellFormed {d : TableDef} {t : Table} (h : convertTable? d = some t) :
    t.WellFormed := by
  unfold convertTable? at h
  obtain ⟨name, -, h⟩ := bind_eq_some_iff.mp h
  obtain rfl := some.inj h
  refine foldlRecOn d.constraints _ ?_ fun t h k _ => convertConstraint_wellFormed h k
  refine foldlRecOn d.columns _ (Table.wellFormed_bare _ _) fun t h c _ => ?_
  exact h.addColumn (convertColumn_wellFormed c) _

namespace TableAlteration

def Has (a : TableAlteration) : AlterationKind → Prop
  | .addColumn => a.addedColumns ≠ []
  | .dropColumn => a.droppedColumns ≠ []
  | .addConstraint => a.addedConstraints ≠ []
  | .dropConstraint => a.droppedConstraints ≠ []

/-- The added columns are well formed, and something of the reported kind is added or dropped. -/
structure WellFormed (a : TableAlteration) : Prop where
  columns : ∀ c ∈ a.addedColumns, c.WellFormed
  has_kind : a.Has a.kind

lemma wellFormed_ofChanges? {name : QualifiedName} {changes : List Alteration}
    {a : TableAlteration} (hcolumns : ∀ c, .addColumn c ∈ changes → c.WellFormed)
    (h : ofChanges? name changes = some a) : a.WellFormed := by
  obtain ⟨first, hfirst, rfl⟩ := map_eq_some_iff.mp h
  obtain ⟨rest, rfl⟩ := head?_eq_some_iff.mp hfirst
  refine ⟨fun c hc => ?_, ?_⟩
  · obtain ⟨change, hchange, hadded⟩ := mem_filterMap.mp hc
    cases change <;> simp only [Alteration.addedColumn?, some.injEq, reduceCtorEq] at hadded
    exact hadded ▸ hcolumns _ hchange
  · cases first <;> simp [Has, Alteration.kind, Alteration.addedColumn?, Alteration.droppedColumn?,
      Alteration.addedConstraint?, Alteration.droppedConstraint?]

end TableAlteration

open Sql in
lemma convertAlteration?_wellFormed {name : ObjectName} {changes : List TableChange}
    {a : TableAlteration} (h : convertAlteration? name changes = some a) : a.WellFormed := by
  unfold convertAlteration? at h
  obtain ⟨qualified, -, h⟩ := bind_eq_some_iff.mp h
  refine TableAlteration.wellFormed_ofChanges? (fun c hc => ?_) h
  obtain ⟨change, -, hconvert⟩ := mem_filterMap.mp hc
  cases change <;>
    simp only [convertChange?, some.injEq, map_eq_some_iff,
      Alteration.addColumn.injEq, reduceCtorEq, and_false, exists_false] at hconvert
  exact hconvert ▸ convertColumn_wellFormed _

/-! ## Definitions read from lexemes -/

variable (t : Text) (source : Text) (file : Option Dialect) (item : List Lexeme)

lemma readColumnTail_wellFormed {c : Column} (h : c.WellFormed)
    (key : Option ForeignKey) (ls : List Lexeme) :
    (readColumnTail source c key ls).1.WellFormed := by
  induction ls generalizing c key with
  | nil => exact h
  | cons l ls ih =>
    rw [readColumnTail]
    dsimp only
    split
    · exact ih h.forbidNull _
    · split
      · exact ih (h.addLabel (by decide)) _
      · split
        · exact ih (h.addLabel (by decide)) _
        · split
          · exact ih (h.addLabel (by decide)) _
          · exact ih h _

/-- **What is read as a column**: a name, and what the words behind its type say. -/
lemma readColumn?_cons (first : Lexeme) (rest : List Lexeme) : readColumn? source (first :: rest) =
      if first.isName then
        first.plain?.map fun name =>
          let isTail (l : Lexeme) : Bool := l.isAnyWord columnTailWords
          readColumnTail source
            { name, dataType := spanType? source (rest.takeWhile (!isTail ·)) } none
            (rest.dropWhile (!isTail ·))
      else none := by
  unfold readColumn?
  dsimp only
  cases first.isName with
  | false => rfl
  | true => cases first.plain? <;> rfl

lemma readColumn?_wellFormed {source : Text} {ls : List Lexeme} {r : Column × Option ForeignKey}
    (h : readColumn? source ls = some r) : r.1.WellFormed := by
  cases ls with
  | nil => cases h
  | cons first rest =>
    rw [readColumn?_cons] at h
    split at h
    · obtain ⟨name, -, rfl⟩ := map_eq_some_iff.mp h
      exact readColumnTail_wellFormed source (wellFormed_bare _ _) _ _
    · cases h

lemma readConstraint_wellFormed {t : Table}
    (h : t.WellFormed) : (readConstraint source item t).WellFormed := by
  unfold readConstraint readForeignKey
  dsimp only
  split
  · exact h
  · split
    · exact h.addPrimaryKey _
    · split
      · split
        · exact h
        · split
          · exact h.addForeignKey _
          · exact h.labelColumns _
      · split
        · exact h.addUnique _
        · exact h

lemma readItem_wellFormed {t : Table} (h : t.WellFormed) (item : List Lexeme) :
    (readItem source t item).WellFormed := by
  unfold readItem
  split
  · exact readConstraint_wellFormed source item h
  · split
    case h_1 column key hread => exact h.addColumn (readColumn?_wellFormed hread) key
    case h_2 => exact h

/-- **A table read from lexemes** is well formed, whatever the lexemes. -/
lemma readTable?_wellFormed {source : Text} {ls : List Lexeme} {t : Table}
    (h : readTable? source ls = some t) : t.WellFormed := by
  unfold readTable? at h
  obtain ⟨behind, -, h⟩ := bind_eq_some_iff.mp h
  obtain ⟨⟨name, rest⟩, -, h⟩ := bind_eq_some_iff.mp h
  dsimp only at h
  split at h
  · obtain rfl := some.inj h
    exact foldlRecOn _ _ (Table.wellFormed_bare _ _) fun t h item _ =>
      readItem_wellFormed source h item
  · obtain rfl := some.inj h
    exact Table.wellFormed_bare _ _

/-! ## Operations -/

/-- The table or the changes in an operation are well formed. -/
def Operation.WellFormed : Operation → Prop
  | .createTable t => t.WellFormed
  | .alterTable a => a.WellFormed
  | _ => True

lemma Operation.WellFormed.respell {o : Operation} (h : o.WellFormed)
    (types : List (String × String)) : (o.respell types).WellFormed := by
  have hname : ∀ c : Column, (c.respell types).name = c.name := by
    intro c
    unfold Column.respell
    split <;> rfl
  have hlabels : ∀ c : Column, (c.respell types).labels = c.labels := by
    intro c
    unfold Column.respell
    split <;> rfl
  cases o with
  | createTable t =>
    refine ⟨?_, h.nodup, ?_⟩
    · intro d hd
      obtain ⟨c, hc, rfl⟩ := mem_map.mp hd
      exact (h.columns c hc).respell types
    · intro d hd hkey
      obtain ⟨c, hc, rfl⟩ := mem_map.mp hd
      rw [hlabels] at hkey
      rw [hname]
      exact h.keyed c hc hkey
  | alterTable a =>
    refine ⟨?_, ?_⟩
    · intro d hd
      obtain ⟨c, hc, rfl⟩ := mem_map.mp hd
      exact (h.columns c hc).respell types
    · have hkind := h.has_kind
      change TableAlteration.Has _ a.kind
      cases hk : a.kind <;> rw [hk] at hkind <;> simpa [TableAlteration.Has] using hkind
  | _ => trivial

/-- **The operations of a parsed statement** are well formed. -/
lemma convertStatement_wellFormed (s : Sql.Statement) (source : Text) :
    ∀ o ∈ convertStatement s source, o.WellFormed := by
  intro o ho
  obtain ⟨o, hmem, rfl⟩ := mem_map.mp ho
  refine Operation.WellFormed.respell ?_ _
  cases htree : s.tree <;>
    simp only [convertTree, htree, List.mem_map, mem_toList, not_mem_nil] at hmem
  case createTable d =>
    obtain ⟨t, ht, rfl⟩ := hmem
    exact convertTable?_wellFormed ht
  case alterTable name changes =>
    obtain ⟨a, ha, rfl⟩ := hmem
    exact convertAlteration?_wellFormed ha
  case createView | alterView | createIndex =>
    obtain ⟨_, -, rfl⟩ := hmem
    trivial
  case drop removal ifExists names =>
    unfold convertDrop at hmem
    split at hmem
    · obtain ⟨n, -, rfl⟩ := mem_map.mp hmem
      trivial
    · cases hmem

/-- **What a definition is read as**: its operations drop objects, or make an index, a view or the
table that is read. -/
lemma readDefinition?_cases {t : Text} {file : Option Dialect} {ops : List Operation}
    {P : Operation → Prop} (h : readDefinition? t file = some ops) (hdrop : ∀ d, P (.drop d))
    (hindex : ∀ i, P (.createIndex i)) (halter : ∀ v, P (.alterView v))
    (hview : ∀ replaces v, P (.createView replaces v))
    (htable : ∀ table, readTable? t (tokenize t) = some table → P (.createTable table)) :
    ∀ o ∈ ops, P o := by
  intro o ho
  unfold readDefinition? at h
  obtain ⟨first, -, h⟩ := bind_eq_some_iff.mp h
  by_cases hfirst : first.isWord "DROP"
  · rw [if_pos hfirst] at h
    unfold readDrop? at h
    obtain ⟨m, -, h⟩ := bind_eq_some_iff.mp h
    obtain ⟨keywords, -, h⟩ := bind_eq_some_iff.mp h
    obtain ⟨kind, -, h⟩ := bind_eq_some_iff.mp h
    dsimp only at h
    split at h
    · cases h
    · obtain rfl := some.inj h
      obtain ⟨name, -, rfl⟩ := mem_map.mp ho
      exact hdrop _
  rw [if_neg hfirst] at h
  obtain ⟨object, -, h⟩ := bind_eq_some_iff.mp h
  split_ifs at h
  · obtain ⟨index, -, rfl⟩ := map_eq_some_iff.mp h
    obtain rfl := mem_singleton.mp ho
    exact hindex index
  · obtain ⟨view, hread, rfl⟩ := map_eq_some_iff.mp h
    obtain rfl := mem_singleton.mp ho
    unfold readView? at hread
    obtain ⟨m, -, hread⟩ := bind_eq_some_iff.mp hread
    obtain ⟨verb, -, hread⟩ := bind_eq_some_iff.mp hread
    obtain ⟨name, -, hread⟩ := bind_eq_some_iff.mp hread
    obtain rfl := some.inj hread
    split
    · exact halter _
    · exact hview _ _
  · obtain ⟨table, hread, rfl⟩ := map_eq_some_iff.mp h
    obtain rfl := mem_singleton.mp ho
    exact htable table hread

namespace Findings

lemma ofDefinition_wellFormed : ∀ o ∈ (ofDefinition t file).operations, o.WellFormed := by
  intro o ho
  unfold ofDefinition at ho
  split at ho
  · obtain ⟨s, -, hs⟩ := mem_flatMap.mp ho
    exact convertStatement_wellFormed s t o hs
  · split at ho
    case h_1 operations hread =>
      have htable :=
        fun table (h : readTable? t (tokenize t) = some table) => readTable?_wellFormed h
      refine readDefinition?_cases (P := Operation.WellFormed) hread ?_ ?_ ?_ ?_ htable o ho
      all_goals intros; trivial
    case h_2 => cases ho

lemma ofRoutine_wellFormed : ∀ o ∈ (ofRoutine t file).operations, o.WellFormed := by
  intro o ho
  unfold ofRoutine at ho
  cases h : extractRoutine t file <;> rw [h] at ho
  case extracted | headerOnly =>
    obtain rfl := mem_singleton.mp ho
    trivial
  all_goals cases ho

lemma ofPackage_wellFormed : ∀ o ∈ (ofPackage t).operations, o.WellFormed := by
  intro o ho
  unfold ofPackage at ho
  cases h : extractPackage? t <;> rw [h] at ho
  case none => cases ho
  case some =>
    obtain ⟨r, -, rfl⟩ := mem_map.mp ho
    trivial

lemma ofTrigger_wellFormed (covered : Bool) :
    ∀ o ∈ (ofTrigger t covered).operations, o.WellFormed := by
  intro o ho
  unfold ofTrigger at ho
  split at ho
  · cases ho
  · split at ho
    · obtain rfl := mem_singleton.mp ho
      trivial
    · cases ho

end Findings

open Findings in
/-- **Tables and their changes are well formed.** The operations of a parsed statement, the tables
that are read from lexemes, and so all operations that are found in a statement are well formed: the
constraints on each column are in their order and none is there twice; one says that the column
cannot be null exactly if it cannot; the primary key has no column twice and has each column that is
labelled as being of it; and a change of a table adds or drops something of its kind.

**Proof sketch.** A table without columns is well formed, and each step by which either reader
builds a table keeps it so (`Table.WellFormed.addColumn`, `Table.WellFormed.addPrimaryKey`,
`Table.WellFormed.addForeignKey`, `Table.WellFormed.addUnique`). Both readers are folds of these
steps over the items of the definition. -/
theorem statementFindings_wellFormed :
    (∀ (s : Sql.Statement) (source : Text), ∀ o ∈ convertStatement s source, o.WellFormed) ∧
    (∀ (source : Text) (ls : List Lexeme), ∀ t ∈ readTable? source ls, t.WellFormed) ∧
    ∀ (t : Text) (file : Option Dialect) (covered : Bool),
      ∀ o ∈ (statementFindings t file covered).operations, o.WellFormed := by
  refine ⟨convertStatement_wellFormed, fun _ _ _ h => readTable?_wellFormed h,
    fun t file covered o ho => ?_⟩
  unfold statementFindings at ho
  cases hkind : classify (tokenize t) <;> rw [hkind] at ho
  case createTable | alterTable | createView | alterView | createIndex | drop =>
    exact ofDefinition_wellFormed t file o ho
  case routine => exact ofRoutine_wellFormed t file o ho
  case packageBody => exact ofPackage_wellFormed t o ho
  case trigger => exact ofTrigger_wellFormed t covered o ho
  case dml =>
    dsimp only [ofStandalone] at ho
    split at ho <;> cases ho
  all_goals cases ho

/-- A table whose key is named in another letter case, read from its lexemes because no grammar
accepts the storage clause. -/
theorem statementFindings_wellFormed_key :
    let t : Table := {
      name := ⟨none, "t"⟩
      ifNotExists := false
      columns := [⟨"a", some "INT", false, [.notNull, .unique, .primaryKey]⟩]
      primaryKeys := ["A"] }
    let source := "CREATE TABLE t (a INT UNIQUE NOT NULL, PRIMARY KEY (A)) ON [PRIMARY]".toList
    .createTable t ∈ (statementFindings source none false).operations ∧ t.WellFormed := by
  intro t source
  have hmem : .createTable t ∈ (statementFindings source none false).operations := by
    decide +kernel
  exact ⟨hmem, statementFindings_wellFormed.2.2 source none false _ hmem⟩

end SqlOutline
