import SqlOutline.Sql.Grammar.Role
import SqlOutline.Sql.Grammar.Routine

/-!
# Definitions

## Main definitions

* `create` — tables, views, indexes, routines and other objects.
-/

namespace SqlOutline.Sql.Grammar

open Reader

/-! ## Views and indexes -/

def viewColumns (g : Grammar) : Reader (List Use) := do
  let column : Reader (List Use) := do
    let _ ← ident
    if g.dialect = .plsql && (← peekAny ["OPTIONS", "COMMENT"]) then
      return (← columnOption? g).elim [] (·.phrase.uses)
    else return []
  if (← symbol? "(") then
    if (← symbol? ")") then return []
    else
      let columns ← commaSeparated column
      symbol ")"
      return columns.flatten
  else return []

/-- The definition of a view. Of two lists of options the second holds, unless it is empty. -/
def createView (g : Grammar) (orReplace : Bool) : Reader Statement := do
  let _ ← keyword? "MATERIALIZED"
  keyword "VIEW"
  let generic := g.dialect = .plsql
  let _ ← whenever generic (keywords? ["IF", "NOT", "EXISTS"])
  let name ← objectName
  let columns ← viewColumns g
  let options ← options? g "WITH"
  if (← keywords? ["CLUSTER", "BY"]) then
    let _ ← columnList?
  let more ← if generic then options? g "OPTIONS" else pure {}
  if (← whenever generic (keyword? "TO")) then
    let _ ← objectName
  if (← whenever generic (keyword? "COMMENT")) then
    symbol "="
    match (← next) with
    | some (.quoted _) => pure ()
    | _ => fail
  keyword "AS"
  let query ← g.query
  let _ ← whenever generic (keywords? ["WITH", "NO", "SCHEMA", "BINDING"])
  let held := if more.text.isEmpty then options else more
  return { tree := .createView orReplace name query, uses := columns ++ query.uses ++ held.uses }

def indexColumn (g : Grammar) : Reader (Expr × List Use) := do
  let e ← g.expr
  let tail ← orderTail g
  return (e, e.uses ++ tail.uses)

def nullsDistinct? : Reader Unit := do
  if (← keyword? "NULLS") then
    let _ ← keyword? "NOT"
    keyword "DISTINCT"

/-- The definition of an index behind `INDEX`. -/
def createIndex (g : Grammar) (unique : Bool) : Reader Statement := do
  let _ ← keyword? "CONCURRENTLY"
  let ifNotExists ← keywords? ["IF", "NOT", "EXISTS"]
  let unnamed ← whenever (!ifNotExists) (keyword? "ON")
  let name ←
    if unnamed then pure none
    else do
      let name ← objectName
      keyword "ON"
      pure (some name)
  let table ← objectName
  let _ ← after? "USING" ident
  let columns ← parens (commaSeparated (indexColumn g))
  let _ ← after? "INCLUDE" columnList
  nullsDistinct?
  let options ←
    if (← whenever (g.isAny [.postgresql, .plsql]) (keyword? "WITH")) then do
      pure (← parens (exprs g)).uses
    else pure []
  let condition ← clause? ["WHERE"] (exprPhrase g)
  return {
    tree := .createIndex ⟨name, table, unique, columns.map (·.1)⟩
    uses := .relation table :: columns.flatMap (·.2) ++ options ++ condition.uses }

/-! ## Other objects -/

def createSchema : Reader Statement := do
  let _ ← keywords? ["IF", "NOT", "EXISTS"]
  if (← keyword? "AUTHORIZATION") then
    let _ ← ident
  else
    let _ ← objectName
    let _ ← after? "AUTHORIZATION" ident
  return {}

def createSequence (g : Grammar) : Reader Statement := do
  let _ ← keywords? ["IF", "NOT", "EXISTS"]
  let _ ← objectName
  let type ← after? "AS" (dataType g)
  let _ ← sequenceOptions g.dialect
  if (← keywords? ["OWNED", "BY"]) then
    if !(← keyword? "NONE") then
      let _ ← objectName
  return { uses := type.elim [] (·.uses) }

def createDatabase (g : Grammar) : Reader Statement := do
  let _ ← keywords? ["IF", "NOT", "EXISTS"]
  let _ ← objectName
  let _ ← many do
    match (← anyKeyword? ["LOCATION", "MANAGEDLOCATION"]) with
    | some _ => return some (← literalString g.dialect)
    | none => return none
  return {}

/-- Fields of a record type behind the opening parenthesis, and the closing one, at most `bound`. A
comma may stand behind the last of them. -/
def recordFieldsUpTo (g : Grammar) : Nat → Reader (List Use)
  | 0 => fail
  | bound + 1 => do
    let _ ← ident
    let type ← dataType g
    let _ ← after? "COLLATE" objectName
    let comma ← symbol? ","
    if (← symbol? ")") then return type.uses
    else if comma then return type.uses ++ (← recordFieldsUpTo g bound)
    else fail

/-- The definition of a type behind `TYPE`: a record, perhaps without fields, or an enumeration in
one dialect, if no other word stands before `TYPE`. -/
def createType (g : Grammar) (plain : Bool) : Reader Statement := do
  let _ ← objectName
  keyword "AS"
  if (← whenever (plain && g.dialect = .postgresql) (keyword? "ENUM")) then
    let _ ← parens (commaSeparatedOrNone ident ")")
    return {}
  else if (← symbol? "(") then
    if (← symbol? ")") then return {} else return { uses := ← recordFieldsUpTo g (← bound) }
  else return {}

def createExtension : Reader Statement := do
  let _ ← keywords? ["IF", "NOT", "EXISTS"]
  let _ ← ident
  if (← keyword? "WITH") then
    let _ ← after? "SCHEMA" ident
    let _ ← after? "VERSION" ident
    let _ ← keyword? "CASCADE"
  return {}

/-- The definition of a secret behind `SECRET`. What ought to name it is taken whether it is a name
or not. -/
def createSecret : Reader Statement := do
  let _ ← keywords? ["IF", "NOT", "EXISTS"]
  if !(← peekSymbol "(") then
    let stored ← keyword? "IN"
    let place ← ident?
    if place.isNone then skip 1
    if !(stored && place.isSome) && (← keyword? "IN") then anyIdent
  parens do
    keyword "TYPE"
    let _ ← ident
    if (← symbol? ",") then
      let _ ← commaSeparated do
        let _ ← ident
        ident
  return {}

/-! ## All definitions -/

/-- A statement behind `CREATE`. -/
def create (g : Grammar) : Reader Statement := do
  let plain ← peekKeyword "TYPE"
  let orReplace ← keywords? ["OR", "REPLACE"]
  let _ ← keywords? ["OR", "ALTER"]
  let _ ← keyword? "LOCAL"
  let _ ← keyword? "GLOBAL"
  let _ ← keyword? "TRANSIENT"
  let _ ← anyKeyword? ["TEMP", "TEMPORARY"]
  if (← keyword? "TABLE") then createTable g
  else if (← peekAny ["MATERIALIZED", "VIEW"]) then createView g orReplace
  else if (← keyword? "POLICY") then createPolicy g
  else if (← keyword? "EXTERNAL") then createExternalTable g
  else if (← keyword? "FUNCTION") then createFunction g orReplace
  else if (← keyword? "TRIGGER") then createTrigger g
  else if (← keywords? ["CONSTRAINT", "TRIGGER"]) then createTrigger g
  else if (← keyword? "MACRO") then createMacro g
  else if (← keyword? "SECRET") then createSecret
  else if orReplace then fail
  else if (← keyword? "EXTENSION") then createExtension
  else if (← keyword? "INDEX") then createIndex g false
  else if (← keywords? ["UNIQUE", "INDEX"]) then createIndex g true
  else if (← keyword? "VIRTUAL") then createVirtualTable
  else if (← keyword? "SCHEMA") then createSchema
  else if (← keyword? "DATABASE") then createDatabase g
  else if (← keyword? "ROLE") then createRole g
  else if (← keyword? "SEQUENCE") then createSequence g
  else if (← keyword? "TYPE") then createType g plain
  else if (← keyword? "PROCEDURE") then createProcedure g
  else fail

end SqlOutline.Sql.Grammar
