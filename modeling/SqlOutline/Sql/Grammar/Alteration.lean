import SqlOutline.Sql.Grammar.Definition

/-!
# Alterations

## Main definitions

* `alterStatement`, `remove` — changes and removals of tables, views, indexes and other objects.
-/

namespace SqlOutline.Sql.Grammar

open Reader

/-! ## Changes of tables -/

def columnPlace? (g : Grammar) : Reader Unit := do
  if g.isAny [.mysql, .plsql] then
    if !(← keyword? "FIRST") then
      let _ ← after? "AFTER" ident

def partitionValues (g : Grammar) : Reader (List Use) := do return (← parens (exprs g)).uses

def plainChange (uses : List Use) : TableChange × List Use := (.other, uses)

def projection (g : Grammar) : Reader (List Use) := do
  let _ ← keywords? ["IF", "NOT", "EXISTS"]
  let _ ← ident
  parens do
    keyword "SELECT"
    let items ← selectItems g
    let groups ← groupBy? g
    let order : Phrase ←
      if (← keywords? ["ORDER", "BY"]) then do
        let order ← orderItems g
        pure (order ++ (← interpolate? g))
      else pure {}
    return items.uses ++ order.uses ++ groups.uses

def projectionName : Reader Unit := do
  let _ ← keywords? ["IF", "EXISTS"]
  let _ ← ident
  let _ ← afterAll? ["IN", "PARTITION"] ident

def addition (g : Grammar) : Reader (TableChange × List Use) := do
  match (← tableConstraint? g) with
  | some c => return (.addConstraint c.phrase.text, c.phrase.uses)
  | none =>
    if (← whenever (g.dialect = .plsql) (keyword? "PROJECTION")) then
      return plainChange (← projection g)
    else
      let _ ← keywords? ["IF", "NOT", "EXISTS"]
      let partitions ← many (after? "PARTITION" (partitionValues g))
      if partitions.isEmpty then
        let _ ← keyword? "COLUMN"
        let _ ← whenever (g.isAny [.postgresql, .plsql]) (keywords? ["IF", "NOT", "EXISTS"])
        let c ← columnDef g
        columnPlace? g
        return (.addColumn c.column, c.phrase.uses)
      else return plainChange partitions.flatten

/-- A removal from a table behind `DROP`. Keywords that one dialect only knows are taken in the
others too. -/
def subtraction (g : Grammar) : Reader (TableChange × List Use) := do
  if (← keywords? ["IF", "EXISTS", "PARTITION"]) then return plainChange (← partitionValues g)
  else if (← keyword? "PARTITION") then return plainChange (← partitionValues g)
  else if (← keyword? "CONSTRAINT") then
    let _ ← keywords? ["IF", "EXISTS"]
    let name ← ident
    let _ ← keyword? "CASCADE"
    return (.dropConstraint name, [])
  else if (← keywords? ["PRIMARY", "KEY"]) && g.isAny [.mysql, .plsql] then
    return (.dropPrimaryKey, [])
  else if (← keyword? "PROJECTION") && g.dialect = .plsql then
    let _ ← keywords? ["IF", "EXISTS"]
    let _ ← ident
    return plainChange []
  else if (← keywords? ["CLUSTERING", "KEY"]) then return plainChange []
  else
    let _ ← keyword? "COLUMN"
    let _ ← keywords? ["IF", "EXISTS"]
    let name ← ident
    let _ ← keyword? "CASCADE"
    return (.dropColumn name, [])

def newName (g : Grammar) : Reader Unit := do
  if (← whenever (g.dialect = .postgresql) (keyword? "CONSTRAINT")) then
    let _ ← ident
    keyword "TO"
    let _ ← ident
  else if (← keyword? "TO") then
    let _ ← objectName
  else
    let _ ← keyword? "COLUMN"
    let _ ← ident
    keyword "TO"
    let _ ← ident

def switching (enable : Bool) : Reader Unit := do
  if (← keywords? ["ROW", "LEVEL", "SECURITY"]) then return
  else
    if enable then
      let _ ← anyKeyword? ["ALWAYS", "REPLICA"]
    let _ ← anyKeyword ["RULE", "TRIGGER"]
    let _ ← ident

def redefinition (g : Grammar) : Reader (List Use) := do
  let type ← dataType g
  let options ← many (columnOption? g)
  columnPlace? g
  return type.uses ++ options.flatMap (·.phrase.uses)

def columnChange (g : Grammar) : Reader (List Use) := do
  let _ ← keyword? "COLUMN"
  let _ ← ident
  let standard := g.dialect = .postgresql
  if (← keywords? ["SET", "NOT", "NULL"]) then return []
  else if (← keywords? ["DROP", "NOT", "NULL"]) then return []
  else if (← keywords? ["SET", "DEFAULT"]) then return (← g.expr).uses
  else if (← keywords? ["DROP", "DEFAULT"]) then return []
  else if (← keywords? ["ADD", "GENERATED"]) then
    if !(← keyword? "ALWAYS") then
      let _ ← keywords? ["BY", "DEFAULT"]
    keywords ["AS", "IDENTITY"]
    let _ ← sequenceOptions? g.dialect
    return []
  else
    if !(← keywords? ["SET", "DATA", "TYPE"]) then
      if !standard then fail
      keyword "TYPE"
    let type ← dataType g
    if (← whenever standard (keyword? "USING")) then return type.uses ++ (← g.expr).uses
    else return type.uses

def tablePortion (g : Grammar) : Reader (List Use) := do
  let _ ← anyKeyword ["PART", "PARTITION"]
  return (← g.expr).uses

def portionChange? (g : Grammar) : Reader (Option (List Use)) := do
  if g.dialect != .plsql then return none
  match (← anyKeyword? ["ATTACH", "DETACH", "FREEZE", "UNFREEZE"]) with
  | some word =>
    let uses ← tablePortion g
    if word = "FREEZE" || word = "UNFREEZE" then
      if (← keyword? "WITH") then
        keyword "NAME"
        let _ ← ident
    return some uses
  | none => return none

def arrangement (g : Grammar) : Reader (List Use) := do
  if (← keywords? ["CLUSTER", "BY"]) then return (← parens (exprs g)).uses
  else if (← keywords? ["SUSPEND", "RECLUSTER"]) then return []
  else if (← keywords? ["RESUME", "RECLUSTER"]) then return []
  else
    match (← optionsBehind? g ["SET", "TBLPROPERTIES"]) with
    | some options => return options.uses
    | none => fail

def laterChange (g : Grammar) : Reader (TableChange × List Use) := do
  if (← keyword? "DROP") then subtraction g
  else if (← keyword? "PARTITION") then
    let old ← partitionValues g
    keywords ["RENAME", "TO", "PARTITION"]
    return plainChange (old ++ (← partitionValues g))
  else if (← keyword? "CHANGE") then
    let _ ← keyword? "COLUMN"
    let _ ← ident
    let _ ← ident
    return plainChange (← redefinition g)
  else if (← keyword? "MODIFY") then
    let _ ← keyword? "COLUMN"
    let _ ← ident
    return plainChange (← redefinition g)
  else if (← keyword? "ALTER") then return plainChange (← columnChange g)
  else if (← keyword? "SWAP") then
    keyword "WITH"
    let _ ← objectName
    return plainChange []
  else if (← whenever (g.isAny [.postgresql, .plsql]) (keywords? ["OWNER", "TO"])) then
    let _ ← ident
    return plainChange []
  else
    match (← portionChange? g) with
    | some uses => return plainChange uses
    | none => return plainChange (← arrangement g)

/-- A change of a table. Keywords about projections are taken even where only one dialect knows
them. -/
def tableChange (g : Grammar) : Reader (TableChange × List Use) := do
  if (← keyword? "ADD") then addition g
  else if (← keyword? "RENAME") then
    newName g
    return plainChange []
  else if (← keyword? "DISABLE") then
    switching false
    return plainChange []
  else if (← keyword? "ENABLE") then
    switching true
    return plainChange []
  else if (← keywords? ["CLEAR", "PROJECTION"]) && g.dialect = .plsql then
    projectionName
    return plainChange []
  else if (← keywords? ["MATERIALIZE", "PROJECTION"]) && g.dialect = .plsql then
    projectionName
    return plainChange []
  else laterChange g

/-! ## Alterations -/

/-- A statement behind `ALTER`. -/
def alterStatement (g : Grammar) : Reader Statement := do
  match (← anyKeyword ["VIEW", "TABLE", "INDEX", "ROLE", "POLICY"]) with
  | "TABLE" =>
    let _ ← keywords? ["IF", "EXISTS"]
    let _ ← keyword? "ONLY"
    let name ← objectName
    onCluster?
    let changes ← commaSeparated (tableChange g)
    let moved ← do
      if (← keyword? "LOCATION") then pure true else keywords? ["SET", "LOCATION"]
    if moved then
      let _ ← ident
    return {
      tree := .alterTable name (changes.map (·.1))
      uses := .relation name :: changes.flatMap (·.2) }
  | "VIEW" =>
    let name ← objectName
    let _ ← columnList?
    let options ← options? g "WITH"
    keyword "AS"
    let query ← g.query
    return { tree := .alterView name query, uses := .relation name :: query.uses ++ options.uses }
  | "ROLE" => alterRole g
  | "POLICY" => alterPolicy g
  | _ =>
    let _ ← objectName
    keywords ["RENAME", "TO"]
    let _ ← objectName
    return {}

/-! ## Removal -/

def removable : List String :=
  ["TABLE", "VIEW", "INDEX", "ROLE", "SCHEMA", "DATABASE", "SEQUENCE", "STAGE", "TYPE"]

def removeObject (kind : String) : Reader Statement := do
  let ifExists ← keywords? ["IF", "EXISTS"]
  let names ← commaSeparated objectName
  let cascade ← keyword? "CASCADE"
  let restrict ← keyword? "RESTRICT"
  let purge ← keyword? "PURGE"
  if cascade && restrict then fail
  if kind = "ROLE" && (cascade || restrict || purge) then fail
  return { tree := .drop (.object kind) ifExists names }

/-- A statement behind `DROP`. -/
def remove (g : Grammar) : Reader Statement := do
  let _ ← whenever (g.isAny [.mysql, .plsql]) (keyword? "TEMPORARY")
  match (← anyKeyword? removable) with
  | some kind => removeObject kind
  | none =>
    match (← anyKeyword ["FUNCTION", "PROCEDURE", "TRIGGER", "POLICY", "SECRET"]) with
    | "TRIGGER" =>
      if !g.isAny [.postgresql, .plsql] then fail
      let ifExists ← keywords? ["IF", "EXISTS"]
      let name ← objectName
      keyword "ON"
      let _ ← objectName
      let _ ← anyKeyword? ["CASCADE", "RESTRICT"]
      return { tree := .drop .trigger ifExists [name] }
    | "POLICY" =>
      let _ ← keywords? ["IF", "EXISTS"]
      let table ← policyTable
      let _ ← anyKeyword? ["CASCADE", "RESTRICT"]
      return { uses := [.relation table] }
    | "SECRET" =>
      let _ ← keywords? ["IF", "EXISTS"]
      let _ ← ident
      if (← keyword? "FROM") then anyIdent
      return {}
    | kind =>
      let ifExists ← keywords? ["IF", "EXISTS"]
      let names ← commaSeparated (routineName g)
      let _ ← anyKeyword? ["CASCADE", "RESTRICT"]
      let removal : Removal := if kind = "FUNCTION" then .function else .procedure
      return { tree := .drop removal ifExists (names.map (·.1)), uses := names.flatMap (·.2) }

end SqlOutline.Sql.Grammar
