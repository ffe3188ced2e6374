import SqlOutline.Sql.Grammar.ColumnOption

/-!
# Columns and constraints

Each part is known by its canonical text and by what it uses.

## Main definitions

* `columnDef`, `tableConstraint?` — a column with its options, and a constraint on a table.
* `tableParts` — all of them.
-/

namespace SqlOutline.Sql.Grammar

open Reader

/-! ## Columns -/

/-- A part of a column's definition behind its type. -/
inductive ColumnPart where
  | option (name : Option Ident) (clause : OptionClause)
  | collation (name : ObjectName)

def ColumnPart.option? : ColumnPart → Option (Option Ident × ColumnOption)
  | .option name clause => some (name, clause.option)
  | .collation _ => none

def ColumnPart.collation? : ColumnPart → Option ObjectName
  | .option _ _ => none
  | .collation name => some name

/-- A part of a column's definition as it is written behind the others; collations stand before
them. -/
def ColumnPart.phrase : ColumnPart → Phrase
  | .option (some name) clause => " CONSTRAINT " ++ name.text ++ " " ++ clause.phrase
  | .option none clause => " " ++ clause.phrase
  | .collation _ => {}

/-- An option of a column with the name of its constraint. Two dialects take a collation among the
options. -/
def columnPart? (g : Grammar) : Reader (Option ColumnPart) := do
  if (← keyword? "CONSTRAINT") then
    let name ← ident
    match (← columnOption? g) with
    | some clause => return some (.option (some name) clause)
    | none => fail
  else
    match (← columnOption? g) with
    | some clause => return some (.option none clause)
    | none =>
      if (← whenever (g.isAny [.mysql, .plsql]) (keyword? "COLLATE")) then
        return some (.collation (← objectName))
      else return none

/-- A column with its canonical text and what it uses. -/
structure ColumnClause where
  column : ColumnDef
  phrase : Phrase

/-- A column. The last of several collations holds. -/
def columnDef (g : Grammar) : Reader ColumnClause := do
  let name ← ident
  let type ← dataType g
  let first ← after? "COLLATE" objectName
  let parts ← many (columnPart? g)
  let collation := ((first.toList ++ parts.filterMap ColumnPart.collation?).getLast?).elim ""
    fun n => " COLLATE " ++ n.text
  return {
    column := ⟨name, type, parts.filterMap ColumnPart.option?⟩
    phrase := name.text ++ " " ++ type.toPhrase ++ collation
      ++ Phrase.join "" (parts.map ColumnPart.phrase) }

/-! ## Constraints of tables -/

/-- A constraint of a table with its canonical text and what it uses. -/
structure ConstraintClause where
  constraint : TableConstraint
  phrase : Phrase

def spacedIdent? : Reader String := do return (← ident?).elim "" (" " ++ ·.text)

def indexType? : Reader String := do
  match (← after? "USING" (anyKeyword ["BTREE", "HASH"])) with
  | some kind => return " USING " ++ kind
  | none => return ""

def indexOptions (d : Dialect) : Reader String := do
  let one : Reader (Option String) := do
    match (← indexType?) with
    | "" =>
      match (← after? "COMMENT" (literalString d)) with
      | some s => return some (" COMMENT '" ++ s ++ "'")
      | none => return none
    | kind => return some kind
  return String.join (← many one)

def keyColumns (d : Dialect) : Reader (List Ident × String) := do
  let name ← spacedIdent?
  let kind ← indexType?
  let columns ← columnList
  let options ← indexOptions d
  let rest ← characteristics
  return (columns, name ++ kind ++ columnsText columns ++ options ++ rest)

def foreignKey (name : Option Ident) : Reader ConstraintClause := do
  let columns ← columnList
  keyword "REFERENCES"
  let target ← referral true
  let rest ← characteristics
  let referred := if target.columns.isEmpty then ""
    else "(" ++ ", ".intercalate (target.columns.map (·.text)) ++ ")"
  return {
    constraint := .foreignKey name columns target
    phrase := ("FOREIGN KEY" ++ columnsText columns ++ " REFERENCES " ++ target.table.text ++
      referred
      ++ Referral.actionsText target ++ rest : String) }

def innerIndex (word : String) : Reader ConstraintClause := do
  let name ← if (← peekKeyword "USING") then pure "" else spacedIdent?
  let kind ← indexType?
  let columns ← columnList
  return ⟨.other, (word ++ name ++ kind ++ columnsText columns : String)⟩

def constraintBody? (g : Grammar) (name : Option Ident) : Reader (Option ConstraintClause) := do
  let keyed := g.isAny [.mysql, .plsql]
  if (← keyword? "UNIQUE") then
    let word ← anyKeyword? ["KEY", "INDEX"]
    if word.isSome && !keyed then fail
    let (columns, text) ← keyColumns g.dialect
    let wordText := word.elim "" (" " ++ ·)
    return some ⟨.unique columns, ("UNIQUE" ++ wordText ++ text : String)⟩
  else if (← keyword? "PRIMARY") then
    keyword "KEY"
    let (columns, text) ← keyColumns g.dialect
    return some ⟨.primaryKey columns, ("PRIMARY KEY" ++ text : String)⟩
  else if (← keyword? "FOREIGN") then
    keyword "KEY"
    return some (← foreignKey name)
  else if (← keyword? "CHECK") then
    let e ← parens g.expr
    return some ⟨.other, "CHECK (" ++ e ++ ")"⟩
  else
    match (← if keyed && name.isNone then anyKeyword? ["INDEX", "KEY"] else pure none) with
    | some word => return some (← innerIndex word)
    | none =>
      match (← if keyed then anyKeyword? ["FULLTEXT", "SPATIAL"] else pure none) with
      | some word =>
        if name.isSome then fail
        let kind := (← anyKeyword? ["KEY", "INDEX"]).elim "" (" " ++ ·)
        let index ← spacedIdent?
        let columns ← columnList
        return some ⟨.other, (word ++ kind ++ index ++ columnsText columns : String)⟩
      | none => return none

/-- A constraint of a table; `none` if none is next. -/
def tableConstraint? (g : Grammar) : Reader (Option ConstraintClause) := do
  match (← after? "CONSTRAINT" ident) with
  | some name =>
    match (← constraintBody? g (some name)) with
    | some c => return some { c with phrase := "CONSTRAINT " ++ name.text ++ " " ++ c.phrase }
    | none => fail
  | none => constraintBody? g none

/-! ## Tables -/

/-- The columns and constraints of a table, and what they use. -/
structure TableParts where
  columns : List ColumnDef := []
  constraints : List TableConstraint := []
  columnUses : List Use := []
  constraintUses : List Use := []

def tablePart (g : Grammar) (parts : TableParts) : Reader TableParts := do
  match (← tableConstraint? g) with
  | some c => return { parts with
      constraints := parts.constraints ++ [c.constraint]
      constraintUses := parts.constraintUses ++ c.phrase.uses }
  | none =>
    match (← peek) with
    | some (.word _) =>
      let c ← columnDef g
      return { parts with
        columns := parts.columns ++ [c.column]
        columnUses := parts.columnUses ++ c.phrase.uses }
    | _ => fail

def tablePartsUpTo (g : Grammar) (parts : TableParts) : Nat → Reader TableParts
  | 0 => fail
  | bound + 1 => do
    let parts ← tablePart g parts
    if (← symbol? ",") then tablePartsUpTo g parts bound
    else
      symbol ")"
      return parts

/-- The columns and constraints of a table in parentheses, or nothing. -/
def tableParts (g : Grammar) : Reader TableParts := do
  if (← symbol? "(") then
    if (← symbol? ")") then return {} else tablePartsUpTo g {} (← bound)
  else return {}

end SqlOutline.Sql.Grammar
