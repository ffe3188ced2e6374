import SqlOutline.Sql.Grammar.Column

/-!
# Definitions of tables

## Main definitions

* `createTable` — columns and constraints, and clauses of different products on how rows are stored.
-/

namespace SqlOutline.Sql.Grammar

open Reader

def onCluster? : Reader Unit := do
  if (← keywords? ["ON", "CLUSTER"]) then
    let _ ← ident

/-! ## Storage -/

def markClauses : List (String × List String) :=
  [("FIELDS", ["TERMINATED", "BY"]), ("COLLECTION", ["ITEMS", "TERMINATED", "BY"]),
    ("MAP", ["KEYS", "TERMINATED", "BY"]), ("LINES", ["TERMINATED", "BY"]),
    ("NULL", ["DEFINED", "AS"])]

/-- The marks in a row, in at most `bound` clauses. A clause that does not go on as it should ends
them, but its first keyword is taken. -/
def rowMarksUpTo : Nat → Reader Unit
  | 0 => return
  | bound + 1 => do
    match (← anyKeyword? (markClauses.map (·.1))) with
    | none => return
    | some word =>
      if (← keywords? ((markClauses.lookup word).getD [])) then
        let _ ← ident
        if word = "FIELDS" then
          let _ ← afterAll? ["ESCAPED", "BY"] ident
        rowMarksUpTo bound

def rowLayout (d : Dialect) : Reader Unit := do
  keyword "FORMAT"
  if (← keyword? "SERDE") then
    let _ ← literalString d
  else
    let _ ← keyword? "DELIMITED"
    rowMarksUpTo (← bound)

/-- What the clauses on storage use. -/
structure Storage where
  properties : List Use := []
  formats : List Use := []

/-- Where and how rows are stored, in at most `bound` further clauses. Of clauses of one kind the
last one holds. -/
def storageUpTo (g : Grammar) (s : Storage) : Nat → Reader Storage
  | 0 => return s
  | bound + 1 => do
    if (← keyword? "ROW") then
      rowLayout g.dialect
      storageUpTo g s bound
    else if (← keyword? "STORED") then
      keyword "AS"
      if (← keyword? "INPUTFORMAT") then
        let input ← g.expr
        keyword "OUTPUTFORMAT"
        let output ← g.expr
        storageUpTo g { s with formats := input.uses ++ output.uses } bound
      else
        let _ ← anyKeyword fileFormats
        storageUpTo g { s with formats := [] } bound
    else if (← keyword? "LOCATION") then
      let _ ← literalString g.dialect
      storageUpTo g s bound
    else
      match (← optionsBehind? g ["WITH", "SERDEPROPERTIES"]) with
      | some properties => storageUpTo g { s with properties := properties.uses } bound
      | none => return s

/-- Where and how rows are stored. -/
def storage (g : Grammar) : Reader (List Use) := do
  let s ← storageUpTo g {} (← bound)
  return s.properties ++ s.formats

def division? (g : Grammar) : Reader (List Use) := do
  if (← keywords? ["PARTITIONED", "BY"]) then
    return (← parens (commaSeparated (columnDef g))).flatMap (·.phrase.uses)
  else return []

def buckets? (g : Grammar) : Reader (List Use) := do
  if (← whenever (g.dialect = .plsql) (keywords? ["CLUSTERED", "BY"])) then
    let _ ← columnList
    let sorted ← afterAll? ["SORTED", "BY"] (parens (orderItems g))
    keyword "INTO"
    let _ ← numberValue g.dialect
    keyword "BUCKETS"
    return sorted.elim [] (·.uses)
  else return []

/-! ## Options of products -/

def equalsWord : Reader Unit := do
  symbol "="
  match (← next) with
  | some (.word _) => return
  | _ => fail

def engine : Reader Unit := do
  equalsWord
  if (← peekSymbol "(") then
    let _ ← parens (commaSeparatedOrNone ident ")")

def tableOrder? (g : Grammar) : Reader (List Use) := do
  if (← keywords? ["ORDER", "BY"]) then
    if (← peekSymbol "(") then
      return (phrases (← parens (commaSeparatedOrNone g.expr ")"))).flatMap (·.uses)
    else return (← g.expr).uses
  else return []

def productOptions (g : Grammar) (buckets : List Use) : Reader (List Use) := do
  let key ←
    if (← whenever (g.dialect = .plsql) (keywords? ["PRIMARY", "KEY"])) then do
      pure (← g.expr).uses
    else pure []
  let order ← tableOrder? g
  let partition ←
    if (← whenever (g.isAny [.postgresql, .plsql]) (keywords? ["PARTITION", "BY"])) then do
      pure (← g.expr).uses
    else pure []
  let options ←
    if g.dialect = .plsql then do
      if (← keywords? ["CLUSTER", "BY"]) then
        let _ ← commaSeparated ident
      pure (← options? g "OPTIONS").uses
    else pure []
  return key ++ order ++ partition ++ buckets ++ options

def onCommit? : Reader Unit := do
  if (← keywords? ["ON", "COMMIT"]) then
    if (← keywords? ["DELETE", "ROWS"]) then return
    else if (← keywords? ["PRESERVE", "ROWS"]) then return
    else keyword "DROP"

def tableComment? : Reader Unit := do
  if (← keyword? "COMMENT") then
    let _ ← symbol? "="
    match (← next) with
    | some (.quoted _) => return
    | _ => fail

/-! ## Tables -/

/-- Where a table is kept and what it is modelled on, between its name and its columns. A name that
it is modelled on is taken whether it is one or not. -/
def tableModel? : Reader Unit := do
  onCluster?
  if (← anyKeyword? ["LIKE", "ILIKE"]).isSome then anyName
  if (← keyword? "CLONE") then anyName

def tableClauses (g : Grammar) : Reader (List Use) := do
  let _ ← keywords? ["WITHOUT", "ROWID"]
  let division ← division? g
  let buckets ← buckets? g
  let storage ← storage g
  let options ← options? g "WITH"
  let properties ← options? g "TBLPROPERTIES"
  if (← keyword? "ENGINE") then engine
  if (← keyword? "AUTO_INCREMENT") then
    let _ ← symbol? "="
    if 4294967296 ≤ (← uint) then fail
  let special ← productOptions g buckets
  if (← keywords? ["DEFAULT", "CHARSET"]) then equalsWord
  if (← keyword? "COLLATE") then equalsWord
  onCommit?
  let _ ← keyword? "STRICT"
  tableComment?
  let query : Phrase ←
    if (← keyword? "AS") then g.query
    else if g.dialect = .mysql && (← peekKeyword "SELECT") then g.query
    else pure {}
  return division ++ storage ++ properties.uses ++ options.uses ++ query.uses ++ special

/-- The definition of a table behind `TABLE`. -/
def createTable (g : Grammar) : Reader Statement := do
  let ifNotExists ← keywords? ["IF", "NOT", "EXISTS"]
  let name ← objectName
  tableModel?
  let parts ← tableParts g
  let clauses ← tableClauses g
  return {
    tree := .createTable ⟨name, ifNotExists, parts.columns, parts.constraints⟩
    uses := .relation name :: parts.columnUses ++ parts.constraintUses ++ clauses }

def externalTable (g : Grammar) : Reader Statement := do
  let ifNotExists ← keywords? ["IF", "NOT", "EXISTS"]
  let name ← objectName
  let parts ← tableParts g
  let division ← division? g
  let storage ← storage g
  let properties ← options? g "TBLPROPERTIES"
  return {
    tree := .createTable ⟨name, ifNotExists, parts.columns, parts.constraints⟩
    uses := .relation name :: parts.columnUses ++ parts.constraintUses ++ division ++ storage
      ++ properties.uses }

/-- The definition of a table whose rows are kept elsewhere, behind `EXTERNAL`. -/
def createExternalTable (g : Grammar) : Reader Statement := do
  keyword "TABLE"
  externalTable g

def createVirtualTable : Reader Statement := do
  keyword "TABLE"
  let _ ← keywords? ["IF", "NOT", "EXISTS"]
  let name ← objectName
  keyword "USING"
  let _ ← ident
  let _ ← columnList?
  return { uses := [.relation name] }

end SqlOutline.Sql.Grammar
