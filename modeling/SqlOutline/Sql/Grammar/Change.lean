import SqlOutline.Sql.Grammar.Select

/-!
# Statements that change rows

## Main definitions

* `insert`, `update`, `delete`, `merge` — one reader for each verb.
-/

namespace SqlOutline.Sql.Grammar

open Reader

def columnsText (columns : List Ident) : String :=
  if columns.isEmpty then "" else " (" ++ ", ".intercalate (columns.map (·.text)) ++ ")"

def onConflict? : Reader String := do
  if (← peekKeyword "OR") then
    match (← peekAt 1) with
    | some (.word w) =>
      if ["REPLACE", "ROLLBACK", "ABORT", "FAIL", "IGNORE"].contains w.keyword then
        skip 2
        return " OR " ++ w.keyword
      else return ""
    | _ => return ""
  else if (← keyword? "REPLACE") then return " OR REPLACE"
  else return ""

def assignment (g : Grammar) : Reader Phrase := do
  let target ←
    if (← peekSymbol "(") then do
      let names ← parens (commaSeparated objectName)
      pure ("(" ++ ", ".intercalate (names.map ObjectName.text) ++ ")")
    else pure (← objectName).text
  symbol "="
  return target ++ " = " ++ (← g.expr)

def assignments (g : Grammar) : Reader Phrase := do
  return Phrase.list (← commaSeparated (assignment g))

def returning? (g : Grammar) : Reader Phrase := clause? ["RETURNING"] (selectItems g)

def onExisting? (g : Grammar) : Reader Phrase := do
  if (← keyword? "ON") then
    if (← keyword? "CONFLICT") then
      let target ←
        if (← keywords? ["ON", "CONSTRAINT"]) then do
          pure (" ON CONSTRAINT " ++ (← objectName).text)
        else if (← peekSymbol "(") then do
          pure ("(" ++ ", ".intercalate ((← columnList).map (·.text)) ++ ")")
        else pure ""
      keyword "DO"
      if (← keyword? "NOTHING") then return (" ON CONFLICT" ++ target ++ " DO NOTHING" : Phrase)
      else
        keywords ["UPDATE", "SET"]
        let changes ← assignments g
        return " ON CONFLICT" ++ target ++ " DO UPDATE SET " ++ changes
          ++ (← clause? ["WHERE"] (exprPhrase g))
    else
      keywords ["DUPLICATE", "KEY", "UPDATE"]
      return " ON DUPLICATE KEY UPDATE " ++ (← assignments g)
  else return {}

/-- The rows of an insertion: columns and a query, or default values alone. The query is met before
the values of a partition. -/
def insertedRows (g : Grammar) : Reader Phrase := do
  if (← keywords? ["DEFAULT", "VALUES"]) then return (" DEFAULT VALUES" : Phrase)
  else
    let isQuery := (← peekSymbol "(") && (← peekAt 1).any (·.isKeyword "SELECT")
    let columns : Phrase ←
      if isQuery then pure {}
      else do
        let columns ← if g.dialect = .mysql then columnListOrEmpty? else columnList?
        let partitions ← after? "PARTITION" (parens (exprs g))
        pure ((columnsText columns : Phrase)
          ++ Phrase.optional " PARTITION (" (partitions.map (· ++ ")")))
    let query ← g.query
    return ⟨columns.text ++ " " ++ query.text, query.uses ++ columns.uses⟩

def fileFormats : List String :=
  ["AVRO", "JSONFILE", "ORC", "PARQUET", "RCFILE", "SEQUENCEFILE", "TEXTFILE"]

def directory (g : Grammar) : Reader Phrase := do
  let path ← literalString g.dialect
  let format ← afterAll? ["STORED", "AS"] (anyKeyword fileFormats)
  let formatText := match format with
    | some f => " STORED AS " ++ f
    | none => ""
  return "INSERT DIRECTORY '" ++ path ++ "'" ++ formatText ++ " " ++ (← g.query)

/-- An insertion behind its keyword. -/
def insert (g : Grammar) : Reader Phrase := do
  let conflict ← onConflict?
  let lenient := g.isAny [.mysql, .plsql]
  let priority ←
    if lenient then anyKeyword? ["LOW_PRIORITY", "DELAYED", "HIGH_PRIORITY"] else pure none
  let ignore := if (← whenever lenient (keyword? "IGNORE")) then " IGNORE" else ""
  let overwrite := if (← keyword? "OVERWRITE") then " OVERWRITE" else ""
  let into := if (← keyword? "INTO") then " INTO" else ""
  let _ ← keyword? "LOCAL"
  if (← keyword? "DIRECTORY") then directory g
  else
    let table := if (← keyword? "TABLE") then " TABLE" else ""
    let name ← objectName
    let other ← if g.dialect = .postgresql then after? "AS" ident else pure none
    let rows ← insertedRows g
    let rowAlias ←
      if (← whenever lenient (keyword? "AS")) then do
        let row ← objectName
        pure (" AS " ++ row.text ++ columnsText (← columnList?))
      else pure ""
    let existing ← onExisting? g
    let returning ← returning? g
    let priorityText := match priority with
      | some p => " " ++ p
      | none => ""
    let head := "INSERT" ++ conflict ++ priorityText ++ ignore ++ overwrite ++ into ++ table ++ " "
      ++ name.text ++ aliasText (other.map (·.text))
    let p : Phrase := head ++ rows ++ rowAlias ++ existing ++ returning
    return ⟨p.text, .relation name :: p.uses⟩

/-- An update behind its keyword. One dialect takes no other tables behind the values. -/
def update (g : Grammar) : Reader Phrase := do
  let conflict ← onConflict?
  let table ← tableWithJoins g
  keyword "SET"
  let changes ← assignments g
  let others ← clause? ["FROM"] (if g.dialect = .mysql then pure {} else tableWithJoins g)
  let condition ← clause? ["WHERE"] (exprPhrase g)
  let returning ← returning? g
  return "UPDATE" ++ conflict ++ " " ++ table ++ " SET " ++ changes ++ others ++ condition
    ++ returning

/-- A deletion behind its keyword. -/
def delete (g : Grammar) : Reader Phrase := do
  let from? ← keyword? "FROM"
  let targets : String ←
    if from? then pure " FROM"
    else if g.dialect = .plsql then pure ""
    else do
      let names ← commaSeparated objectName
      keyword "FROM"
      pure (" " ++ ", ".intercalate (names.map ObjectName.text) ++ " FROM")
  let tables := Phrase.list (← commaSeparated (tableWithJoins g))
  let using? ← clause? ["USING"] do return Phrase.list (← commaSeparated (tableWithJoins g))
  let condition ← clause? ["WHERE"] (exprPhrase g)
  let returning ← returning? g
  let order ← clause? ["ORDER", "BY"] (orderItems g)
  let limit : Phrase ←
    if (← keyword? "LIMIT") then do
      if (← keyword? "ALL") then pure {} else pure (" LIMIT " ++ (← g.expr))
    else pure {}
  return "DELETE" ++ targets ++ " " ++ tables ++ using? ++ condition ++ returning ++ order ++ limit

/-- Which rows a clause of a merge is about. -/
inductive MergeRows where
  | matched
  | missing
  | missingInSource
  deriving DecidableEq

def mergeRows : Reader (MergeRows × String) := do
  if (← keyword? "NOT") then
    keyword "MATCHED"
    if (← keywords? ["BY", "SOURCE"]) then return (.missingInSource, "NOT MATCHED BY SOURCE")
    else if (← keywords? ["BY", "TARGET"]) then return (.missing, "NOT MATCHED BY TARGET")
    else return (.missing, "NOT MATCHED")
  else
    keyword "MATCHED"
    return (.matched, "MATCHED")

/-- What a clause of a merge does with its rows. Only missing rows can be inserted, and only they
cannot be changed. -/
def mergeAction (g : Grammar) (rows : MergeRows) : Reader Phrase := do
  match (← anyKeyword ["UPDATE", "INSERT", "DELETE"]) with
  | "UPDATE" =>
    if rows = .missing then fail
    keyword "SET"
    return "UPDATE SET " ++ (← assignments g)
  | "DELETE" => if rows = .missing then fail else return ("DELETE" : Phrase)
  | _ =>
    if rows != .missing then fail
    let columns ← if g.dialect = .mysql then columnListOrEmpty? else columnList?
    let rows : Phrase ←
      if (← whenever (g.dialect = .plsql) (keyword? "ROW")) then pure ("ROW" : Phrase)
      else do
        keyword "VALUES"
        values g
    return "INSERT" ++ columnsText columns ++ " " ++ rows

def mergeClause? (g : Grammar) : Reader (Option Phrase) := do
  if (← peek).isNone || (← peekSymbol ";") then return none
  else
    keyword "WHEN"
    let (rows, text) ← mergeRows
    let condition ← clause? ["AND"] (exprPhrase g)
    keyword "THEN"
    return some (" WHEN " ++ text ++ condition ++ " THEN " ++ (← mergeAction g rows))

/-- A merge behind its keyword. -/
def merge (g : Grammar) : Reader Phrase := do
  let into := if (← keyword? "INTO") then " INTO" else ""
  let target ← tableFactor g
  keyword "USING"
  let source ← tableFactor g
  keyword "ON"
  let condition ← g.expr
  let clauses ← many (mergeClause? g)
  return "MERGE" ++ into ++ " " ++ target.phrase ++ " USING " ++ source.phrase ++ " ON " ++
    condition
    ++ Phrase.join "" clauses

end SqlOutline.Sql.Grammar
