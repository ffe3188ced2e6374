import SqlOutline.Name

/-!
# Tables

## Main definitions

* `Table`, `Column`, `ForeignKey` — the definition of a table.
* `TableAlteration` — changes of a table.
-/

namespace SqlOutline

open Text

/-! ## Columns -/

/-- A constraint on a single column. -/
inductive ConstraintLabel where
  | notNull
  | unique
  | primaryKey
  | foreignKey
  deriving Repr, DecidableEq

namespace ConstraintLabel

def text : ConstraintLabel → String
  | .notNull => "NOT NULL"
  | .unique => "UNIQUE"
  | .primaryKey => "PRIMARY KEY"
  | .foreignKey => "FOREIGN KEY"

def rank : ConstraintLabel → Nat
  | .notNull => 0
  | .unique => 1
  | .primaryKey => 2
  | .foreignKey => 3

def insert (label : ConstraintLabel) : List ConstraintLabel → List ConstraintLabel
  | [] => [label]
  | l :: ls =>
    if label = l then l :: ls
    else if label.rank < l.rank then label :: l :: ls
    else l :: insert label ls

@[simp]
theorem mem_insert (a b : ConstraintLabel) (ls : List ConstraintLabel) :
    b ∈ insert a ls ↔ b = a ∨ b ∈ ls := by
  induction ls with
  | nil => simp [insert]
  | cons l ls ih =>
    by_cases h : a = l
    · simp [insert, h]
    · by_cases hr : a.rank < l.rank
      · simp [insert, h, hr]
      · simp [insert, h, hr, ih, or_left_comm]

end ConstraintLabel

/-- A column of a table. -/
structure Column where
  name : String
  dataType : Option String
  nullable : Bool := true
  labels : List ConstraintLabel := []
  deriving Repr, DecidableEq

namespace Column

def addLabel (c : Column) (label : ConstraintLabel) : Column :=
  { c with labels := label.insert c.labels }

def forbidNull (c : Column) : Column := { c.addLabel .notNull with nullable := false }

def isNamed (c : Column) (name : String) : Bool := eqIgnoreCase c.name.toList name.toList

def labelNamed (label : ConstraintLabel) (name : String) : List Column → List Column
  | [] => []
  | c :: cs => if c.isNamed name then c.addLabel label :: cs else c :: labelNamed label name cs

end Column

/-! ## Tables -/

/-- A foreign key. The actions are reported as they are written. -/
structure ForeignKey where
  name : Option String := none
  columns : List String := []
  referencedTable : String
  referencedColumns : List String := []
  onDelete : Option String := none
  onUpdate : Option String := none
  deriving Repr, DecidableEq

/-- The definition of a table. -/
structure Table where
  name : QualifiedName
  ifNotExists : Bool
  columns : List Column := []
  primaryKeys : List String := []
  foreignKeys : List ForeignKey := []
  deriving Repr, DecidableEq

namespace Table

def addKey (t : Table) (column : String) : Table :=
  if t.primaryKeys.contains column then t else { t with primaryKeys := t.primaryKeys ++ [column] }

def labelColumn (t : Table) (label : ConstraintLabel) (column : String) : Table :=
  { t with columns := Column.labelNamed label column t.columns }

def addColumn (t : Table) (column : Column) (key : Option ForeignKey) : Table :=
  let t := if column.labels.contains .primaryKey then t.addKey column.name else t
  { t with columns := t.columns ++ [column], foreignKeys := t.foreignKeys ++ key.toList }

def addPrimaryKey (t : Table) (columns : List String) : Table :=
  columns.foldl (fun t c => (t.labelColumn .primaryKey c).addKey c) t

def addForeignKey (t : Table) (key : ForeignKey) : Table :=
  let t := key.columns.foldl (·.labelColumn .foreignKey ·) t
  { t with foreignKeys := t.foreignKeys ++ [key] }

def addUnique (t : Table) : List String → Table
  | [column] => t.labelColumn .unique column
  | _ => t

end Table

/-! ## Changes -/

/-- The kinds of changes that are reported. -/
inductive AlterationKind where
  | addColumn
  | dropColumn
  | addConstraint
  | dropConstraint
  deriving Repr, DecidableEq

def AlterationKind.text : AlterationKind → String
  | .addColumn => "ADD_COLUMN"
  | .dropColumn => "DROP_COLUMN"
  | .addConstraint => "ADD_CONSTRAINT"
  | .dropConstraint => "DROP_CONSTRAINT"

/-- A change that is reported. -/
inductive Alteration where
  | addColumn (column : Column)
  | dropColumn (name : String)
  | addConstraint (text : String)
  | dropConstraint (name : String)
  deriving Repr, DecidableEq

namespace Alteration

def kind : Alteration → AlterationKind
  | .addColumn _ => .addColumn
  | .dropColumn _ => .dropColumn
  | .addConstraint _ => .addConstraint
  | .dropConstraint _ => .dropConstraint

def addedColumn? : Alteration → Option Column
  | .addColumn c => some c
  | _ => none

def droppedColumn? : Alteration → Option String
  | .dropColumn n => some n
  | _ => none

def addedConstraint? : Alteration → Option String
  | .addConstraint t => some t
  | _ => none

def droppedConstraint? : Alteration → Option String
  | .dropConstraint n => some n
  | _ => none

end Alteration

/-- What is added to a table and dropped from it. The first change gives the kind. -/
structure TableAlteration where
  name : QualifiedName
  kind : AlterationKind
  addedColumns : List Column := []
  droppedColumns : List String := []
  addedConstraints : List String := []
  droppedConstraints : List String := []
  deriving Repr, DecidableEq

def TableAlteration.ofChanges? (name : QualifiedName) (changes : List Alteration) :
    Option TableAlteration :=
  changes.head?.map fun first => {
    name
    kind := first.kind
    addedColumns := changes.filterMap Alteration.addedColumn?
    droppedColumns := changes.filterMap Alteration.droppedColumn?
    addedConstraints := changes.filterMap Alteration.addedConstraint?
    droppedConstraints := changes.filterMap Alteration.droppedConstraint? }

end SqlOutline
