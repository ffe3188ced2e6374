import SqlOutline.Proofs.Definition.TableMarks

/-!
# Outlines of tables

A table is built from its columns and constraints one by one. A key may be added before a column
unless it names that column, or both belong to the primary key.

## Main definitions

* `Table.outline` — a table without the types of its columns and without foreign keys.
* `Table.addPart`, `TablePart.MayPrecede` — adding a part, and parts that may be swapped.

## Main results

* `outline_convertTable?` — the outline of a parsed table.
* `foldl_addPart` — columns may be added first if all that stands before them may do so.
-/

namespace SqlOutline

open List Sql Column

/-! ## Outlines -/

def Column.untyped (c : Column) : Column := { c with dataType := none }

/-- A table without the types of its columns and without its foreign keys. -/
def Table.outline (t : Table) : Table :=
  { t with columns := t.columns.map untyped, foreignKeys := [] }

@[simp]
lemma Column.isNamed_untyped (c : Column) (name : String) :
    c.untyped.isNamed name = c.isNamed name := rfl

@[simp]
lemma Column.labels_untyped (c : Column) : c.untyped.labels = c.labels := rfl

lemma Column.untyped_foldl_constrain (c : Column) (labels : List ConstraintLabel) :
    (labels.foldl constrain c).untyped = labels.foldl constrain c.untyped := by
  refine (foldl_hom untyped fun c label => ?_).symm
  cases label <;> rfl

lemma Column.map_untyped_labelNamed (label : ConstraintLabel) (name : String)
    (columns : List Column) :
    (labelNamed label name columns).map untyped = labelNamed label name (columns.map untyped) := by
  induction columns with
  | nil => rfl
  | cons c columns ih =>
    rw [labelNamed, map_cons, labelNamed, isNamed_untyped]
    split
    · rfl
    · rw [map_cons, ih]

namespace Table

variable (t : Table)

lemma outline_labelColumn (label : ConstraintLabel) (column : String) :
    (t.labelColumn label column).outline = t.outline.labelColumn label column := by
  simp [labelColumn, outline, map_untyped_labelNamed]

lemma outline_addKey (column : String) : (t.addKey column).outline = t.outline.addKey column := by
  have hkeys : t.outline.primaryKeys = t.primaryKeys := rfl
  rw [addKey, addKey, hkeys]
  by_cases h : t.primaryKeys.contains column
  · rw [if_pos h, if_pos h]
  · rw [if_neg h, if_neg h]
    rfl

lemma outline_addColumn (column : Column) (key : Option ForeignKey) :
    (t.addColumn column key).outline = t.outline.addColumn column.untyped none := by
  unfold addColumn
  rw [labels_untyped]
  split
  · rw [show column.untyped.name = column.name from rfl, ← outline_addKey]
    simp [outline]
  · simp [outline]

lemma outline_addPrimaryKey (columns : List String) :
    (t.addPrimaryKey columns).outline = t.outline.addPrimaryKey columns := by
  refine (foldl_hom outline fun t c => ?_).symm
  rw [outline_addKey, outline_labelColumn]

lemma outline_foldl_labelColumn (label : ConstraintLabel) (columns : List String) :
    (columns.foldl (·.labelColumn label ·) t).outline =
      columns.foldl (·.labelColumn label ·) t.outline := by
  refine (foldl_hom outline fun t c => ?_).symm
  rw [outline_labelColumn]

lemma outline_addForeignKey (key : ForeignKey) :
    (t.addForeignKey key).outline = key.columns.foldl (·.labelColumn .foreignKey ·) t.outline := by
  rw [← outline_foldl_labelColumn]
  rfl

lemma outline_addUnique (columns : List String) :
    (t.addUnique columns).outline = t.outline.addUnique columns := by
  unfold addUnique
  split
  · exact outline_labelColumn t _ _
  · rfl

end Table

/-! ## Parts -/

def Sql.TableConstraint.labelled : TableConstraint → List String
  | .primaryKey columns | .foreignKey _ columns _ => columns.filterMap Ident.plain?
  | .unique [column] => column.plain?.toList
  | .unique _ | .other => []

def Table.restrict (t : Table) (c : TableConstraint) : Table :=
  match c with
  | .primaryKey _ => t.addPrimaryKey c.labelled
  | .unique _ => t.addUnique c.labelled
  | .foreignKey _ _ _ => c.labelled.foldl (·.labelColumn .foreignKey ·) t
  | .other => t

/-- The outline of a column. -/
def Sql.ColumnDef.outline (c : ColumnDef) : Column :=
  (optionLabels c.options).foldl constrain
    { name := c.name.plain?.getD "", dataType := none }

/-- An outline with one more column or constraint. -/
def Table.addPart (t : Table) : TablePart → Table
  | .column c => t.addColumn c.outline none
  | .constraint c => t.restrict c

lemma fst_foldl_convertOption (options : List (Option Ident × ColumnOption)) (column : Column)
    (key : Option ForeignKey) : (options.foldl convertOption (column, key)).1 =
      (optionLabels options).foldl constrain column := by
  induction options generalizing column key with
  | nil => rfl
  | cons o options ih =>
    obtain ⟨name, option⟩ := o
    cases option <;> exact ih _ _

lemma untyped_convertColumn (c : ColumnDef) : (convertColumn c).1.untyped = c.outline := by
  rw [convertColumn, fst_foldl_convertOption, untyped_foldl_constrain]
  rfl

lemma outline_convertConstraint (t : Table) (c : TableConstraint) :
    (convertConstraint t c).outline = t.outline.restrict c := by
  cases c with
  | primaryKey columns => exact t.outline_addPrimaryKey _
  | unique columns =>
    match columns with
    | [] => rfl
    | [_] => exact t.outline_addUnique _
    | _ :: _ :: _ => rfl
  | foreignKey name columns target => exact t.outline_addForeignKey _
  | other => rfl

/-- **A parsed table** has the outline that its columns and then its constraints build. -/
lemma outline_convertTable? {d : TableDef} {name : QualifiedName}
    (hname : ObjectName.qualified? d.name = some name) : ∃ u, convertTable? d = some u ∧ u.outline =
      d.constraints.foldl Table.restrict
        (d.columns.foldl (·.addColumn ·.outline none) { name, ifNotExists := d.ifNotExists }) := by
  refine ⟨_, by rw [convertTable?, hname]; rfl, ?_⟩
  rw [← foldl_hom Table.outline fun t c => (outline_convertConstraint t c).symm,
    ← foldl_hom Table.outline fun t (c : ColumnDef) => ?_]
  · rfl
  · rw [Table.outline_addColumn, untyped_convertColumn]

/-! ## The order of parts -/

def Sql.TableConstraint.isPrimary : TableConstraint → Bool
  | .primaryKey _ => true
  | _ => false

/-- A constraint on a table may be added before a column that it does not label, unless both belong
to the primary key. -/
def TablePart.MayPrecede : TablePart → TablePart → Prop
  | .constraint k, .column c =>
    (∀ name ∈ k.labelled, c.outline.isNamed name = false) ∧
      (k.isPrimary → c.outline.labels.contains .primaryKey = false)
  | _, _ => True

variable {name : String}

lemma Column.labelNamed_append_singleton (label : ConstraintLabel) {c : Column}
    (hc : c.isNamed name = false) (columns : List Column) :
    labelNamed label name (columns ++ [c]) = labelNamed label name columns ++ [c] := by
  induction columns with
  | nil => simp [labelNamed, hc]
  | cons b columns ih =>
    rw [cons_append, labelNamed, labelNamed, ih]
    split <;> rfl

variable {names : List String}

namespace Table

variable (t : Table) {c : Column}

lemma addColumn_labelColumn (label : ConstraintLabel) (hc : c.isNamed name = false) :
    (t.labelColumn label name).addColumn c none = (t.addColumn c none).labelColumn label name := by
  have hcolumns := labelNamed_append_singleton label hc
  unfold addColumn
  split
  · simp only [addKey_labelColumn]
    simp [labelColumn, hcolumns]
  · simp [labelColumn, hcolumns]

lemma addColumn_addKey (name : String) (hc : c.labels.contains .primaryKey = false) :
    (t.addKey name).addColumn c none = (t.addColumn c none).addKey name := by
  simp only [addColumn, hc, Bool.false_eq_true, if_false, addKey]
  split <;> rfl

lemma addColumn_foldl_labelColumn (label : ConstraintLabel)
    (hc : ∀ name ∈ names, c.isNamed name = false) :
    (names.foldl (·.labelColumn label ·) t).addColumn c none =
      names.foldl (·.labelColumn label ·) (t.addColumn c none) :=
  foldl_rel (r := fun u v => addColumn u c none = v) rfl fun name hname u _ h => by
    rw [addColumn_labelColumn u label (hc name hname), h]

lemma addColumn_addPrimaryKey (hc : ∀ name ∈ names, c.isNamed name = false)
    (hkey : c.labels.contains .primaryKey = false) :
    (t.addPrimaryKey names).addColumn c none = (t.addColumn c none).addPrimaryKey names :=
  foldl_rel (r := fun u v => addColumn u c none = v) rfl fun name hname u _ h => by
    rw [addColumn_addKey _ name hkey, addColumn_labelColumn u .primaryKey (hc name hname), h]

lemma addColumn_addUnique (hc : ∀ name ∈ names, c.isNamed name = false) :
    (t.addUnique names).addColumn c none = (t.addColumn c none).addUnique names := by
  match names with
  | [name] => exact t.addColumn_labelColumn .unique (hc name mem_cons_self)
  | [] | _ :: _ :: _ => rfl

lemma addColumn_restrict {k : TableConstraint} (hc : ∀ name ∈ k.labelled, c.isNamed name = false)
    (hkey : k.isPrimary → c.labels.contains .primaryKey = false) :
    (t.restrict k).addColumn c none = (t.addColumn c none).restrict k := by
  cases k with
  | primaryKey _ => exact t.addColumn_addPrimaryKey hc (hkey rfl)
  | unique _ => exact t.addColumn_addUnique hc
  | foreignKey _ _ _ => exact t.addColumn_foldl_labelColumn .foreignKey hc
  | other => rfl

end Table

/-- **Columns may be added first** if all that stands before them may do so. -/
lemma foldl_addPart {parts : List TablePart} (h : parts.Pairwise TablePart.MayPrecede) (t : Table) :
    parts.foldl Table.addPart t =
      (parts.flatMap TablePart.constraints).foldl Table.restrict
        ((parts.flatMap TablePart.columns).foldl (·.addColumn ·.outline none) t) := by
  induction parts generalizing t with
  | nil => rfl
  | cons p parts ih =>
    rw [pairwise_cons] at h
    rw [foldl_cons, ih h.2]
    cases p with
    | column c => rfl
    | constraint k =>
      -- The constraint moves behind one column after another.
      have hmove (columns : List ColumnDef)
          (hcolumns : ∀ c ∈ columns, TablePart.MayPrecede (.constraint k) (.column c)) :
          columns.foldl (·.addColumn ·.outline none) (t.restrict k) =
            (columns.foldl (·.addColumn ·.outline none) t).restrict k :=
        foldl_rel (r := fun u v => u = Table.restrict v k) rfl fun c hc u v h => by
          obtain ⟨hnames, hkey⟩ := hcolumns c hc
          rw [h, v.addColumn_restrict hnames hkey]
      rw [Table.addPart, hmove]
      · rfl
      · intro c hc
        obtain ⟨q, hq, hc⟩ := mem_flatMap.mp hc
        cases q with
        | column b =>
          obtain rfl : c = b := mem_singleton.mp hc
          exact h.1 _ hq
        | constraint b => cases hc

end SqlOutline
