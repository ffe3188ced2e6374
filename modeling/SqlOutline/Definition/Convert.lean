import SqlOutline.Definition.Lexical

/-!
# Definitions read from parsed statements

Types of columns keep the spelling that they have in the source.

## Main definitions

* `convertTable?`, `convertAlteration?` — tables and their changes.
* `convertStatement` — the operations of a parsed statement.
-/

namespace SqlOutline

open Text Sql

def Sql.ObjectName.qualified? (n : ObjectName) : Option QualifiedName :=
  QualifiedName.ofParts? (n.map (·.value))

def spelling? (s : String) : Option String := (Name.normalizeType? s.toList).map String.ofList

/-! ## Tables -/

def convertReferral (name : Option Ident) (columns : List String) (r : Referral) : ForeignKey where
  name := name.bind Ident.plain?
  columns
  referencedTable := (ObjectName.chain? r.table).getD ""
  referencedColumns := r.columns.filterMap Ident.plain?
  onDelete := r.onDelete.map (·.text)
  onUpdate := r.onUpdate.map (·.text)

/-- A column and the foreign key that it is, with one more option. A primary key does not say that
the column cannot be null. -/
def convertOption (state : Column × Option ForeignKey) (o : Option Ident × ColumnOption) :
    Column × Option ForeignKey :=
  let (column, key) := state
  match o.2 with
  | .notNull => (column.forbidNull, key)
  | .unique => (column.addLabel .unique, key)
  | .primaryKey => (column.addLabel .primaryKey, key)
  | .references r =>
    (column.addLabel .foreignKey, some (convertReferral o.1 [column.name] r))
  | .other => (column, key)

def convertColumn (c : ColumnDef) : Column × Option ForeignKey :=
  let column : Column := { name := c.name.plain?.getD "", dataType := spelling? c.dataType.text }
  c.options.foldl convertOption (column, none)

def convertConstraint (table : Table) : TableConstraint → Table
  | .primaryKey columns => table.addPrimaryKey (columns.filterMap Ident.plain?)
  | .unique [column] => table.addUnique column.plain?.toList
  | .unique _ => table
  | .foreignKey name columns target =>
    table.addForeignKey (convertReferral name (columns.filterMap Ident.plain?) target)
  | .other => table

/-- The definition of a table. -/
def convertTable? (t : TableDef) : Option Table := do
  let name ← ObjectName.qualified? t.name
  let addColumn (table : Table) (c : ColumnDef) : Table :=
    let (column, key) := convertColumn c
    table.addColumn column key
  let table := t.columns.foldl addColumn { name, ifNotExists := t.ifNotExists }
  return t.constraints.foldl convertConstraint table

def convertChange? : TableChange → Option Alteration
  | .addColumn c => some (.addColumn (convertColumn c).1)
  | .dropColumn name => name.plain?.map .dropColumn
  | .addConstraint text => (spelling? text).map .addConstraint
  | .dropConstraint name => name.plain?.map .dropConstraint
  | .dropPrimaryKey => some (.dropConstraint "PRIMARY KEY")
  | .other => none

/-- The changes of a table, if any of them is reported. -/
def convertAlteration? (name : ObjectName) (changes : List TableChange) :
    Option TableAlteration := do
  TableAlteration.ofChanges? (← ObjectName.qualified? name) (changes.filterMap convertChange?)

/-! ## Other objects -/

def convertIndexColumn? (e : Expr) : Option String :=
  match e.shape with
  | .ident i => i.plain?
  | .compound parts => parts.getLast?.bind Ident.plain?
  | _ => spelling? e.text

/-- The definition of an index. -/
def convertIndex? (i : IndexDef) : Option Index := do
  let table ← ObjectName.qualified? i.table
  let name := (i.name.bind ObjectName.qualified?).map (·.name)
  return ⟨name, table, i.unique, i.columns.filterMap convertIndexColumn?⟩

def convertView? (name : ObjectName) (query : Phrase) : Option View := do
  return ⟨← ObjectName.qualified? name, (Collector.addUses {} query.uses).finish.relations⟩

def convertRemoval? : Removal → Option DropKind
  | .object kind => DropKind.ofKeywords? kind.toList
  | .function => some .function
  | .procedure => some .procedure
  | .trigger => some .trigger

def convertDrop (removal : Removal) (ifExists : Bool) (names : List ObjectName) :
    List Operation :=
  match convertRemoval? removal with
  | some kind => (names.filterMap ObjectName.qualified?).map fun n => .drop ⟨kind, n, ifExists⟩
  | none => []

/-! ## Statements -/

def convertTree : StatementTree → List Operation
  | .createTable t => (convertTable? t).toList.map .createTable
  | .alterTable name changes => (convertAlteration? name changes).toList.map .alterTable
  | .createView orReplace name query => (convertView? name query).toList.map (.createView orReplace)
  | .alterView name query => (convertView? name query).toList.map .alterView
  | .createIndex i => (convertIndex? i).toList.map .createIndex
  | .drop removal ifExists names => convertDrop removal ifExists names
  | .createFunction _ => []
  | .explanation => []
  | .other => []

def Column.respell (types : List (String × String)) (c : Column) : Column :=
  match types.find? fun (name, _) => c.isNamed name with
  | some (_, type) => { c with dataType := some type }
  | none => c

def Operation.respell (types : List (String × String)) : Operation → Operation
  | .createTable t => .createTable { t with columns := t.columns.map (·.respell types) }
  | .alterTable a => .alterTable { a with addedColumns := a.addedColumns.map (·.respell types) }
  | o => o

/-- The operations of a statement whose source is given. -/
def convertStatement (s : Sql.Statement) (source : Text) : List Operation :=
  (convertTree s.tree).map (·.respell (spelledTypes source))

end SqlOutline
