import SqlOutline.Sql.Grammar.Change

/-!
# Queries

## Main definitions

* `queryWith` — a selection, rows of values or a combination of queries, with common table
  expressions before it and clauses behind it that sort, limit and lock its rows.
-/

namespace SqlOutline.Sql.Grammar

open Reader

/-! ## Combinations -/

def setOperator? : Reader (Option (String × Nat)) := do
  if (← peekKeyword "UNION") then return some ("UNION", 10)
  else if (← peekKeyword "EXCEPT") then return some ("EXCEPT", 10)
  else if (← peekKeyword "INTERSECT") then return some ("INTERSECT", 20)
  else return none

def setQuantifier : Reader String := do
  let byName : Reader String := do return if (← keywords? ["BY", "NAME"]) then " BY NAME" else ""
  if (← keyword? "ALL") then return " ALL" ++ (← byName)
  else if (← keyword? "DISTINCT") then return " DISTINCT" ++ (← byName)
  else byName

def wholeTable : Reader Phrase := do
  let first ← next
  let second ← next
  let third ← next
  match first with
  | some (.word w) =>
    if second.any (·.isSymbol ".") then
      match third with
      | some (.word v) => return ("TABLE " ++ w.value ++ "." ++ v.value : Phrase)
      | _ => fail
    else return ("TABLE " ++ w.value : Phrase)
  | _ => fail

def simpleQuery (g : Grammar) : Reader Phrase := do
  if (← peekKeyword "SELECT") then select g
  else if (← symbol? "(") then
    let q ← g.query
    symbol ")"
    return "(" ++ q ++ ")"
  else if (← keyword? "VALUES") then values g
  else if (← keyword? "TABLE") then wholeTable
  else fail

/-- A query and what is combined with it more tightly than the given strength, in at most `bound`
steps. -/
def queryBodyUpTo (g : Grammar) (strength : Nat) : Nat → Reader Phrase
  | 0 => fail
  | bound + 1 => do
    let first ← simpleQuery g
    let step : Reader (Option Phrase) := do
      match (← setOperator?) with
      | some (operator, found) =>
        if strength < found then
          skip 1
          let quantifier ← setQuantifier
          return some (" " ++ operator ++ quantifier ++ " " ++ (← queryBodyUpTo g found bound))
        else return none
      | none => return none
    return first ++ Phrase.join "" (← many step)

/-- A query without the clauses before and behind it. -/
def queryBody (g : Grammar) : Reader Phrase := do queryBodyUpTo g 0 (← bound)

/-! ## Clauses before and behind -/

def commonTable (g : Grammar) : Reader (Ident × Phrase) := do
  let name ← ident
  let columns ← if (← keyword? "AS") then pure "" else do
    let columns ← namedColumns g
    keyword "AS"
    pure columns
  let materialized ←
    if g.dialect = .postgresql then do
      if (← keyword? "MATERIALIZED") then pure "MATERIALIZED "
      else if (← keywords? ["NOT", "MATERIALIZED"]) then pure "NOT MATERIALIZED "
      else pure ""
    else pure ""
  let q ← parens g.query
  let source := match (← after? "FROM" ident) with
    | some i => " FROM " ++ i.text
    | none => ""
  return (name, name.text ++ columns ++ " AS " ++ materialized ++ "(" ++ q ++ ")" ++ source)

/-- Common table expressions before a query. All of them are known before their queries are met. -/
def commonTables? (g : Grammar) : Reader Phrase := do
  if (← keyword? "WITH") then
    let recursive := if (← keyword? "RECURSIVE") then "RECURSIVE " else ""
    let tables ← commaSeparated (commonTable g)
    let p : Phrase := "WITH " ++ recursive ++ Phrase.list (tables.map (·.2)) ++ " "
    return ⟨p.text, tables.map (fun t => .cte t.1.value) ++ p.uses⟩
  else return {}

def interpolate? (g : Grammar) : Reader Phrase := do
  if (← whenever (g.dialect = .plsql) (keyword? "INTERPOLATE")) then
    if (← symbol? "(") then
      let item : Reader Phrase := do
        let name ← ident
        let e ← after? "AS" g.expr
        return (name.text : Phrase) ++ Phrase.optional " AS " (e.map (·.toPhrase))
      let items ← commaSeparatedOrNone item ")"
      symbol ")"
      return " INTERPOLATE (" ++ Phrase.list items ++ ")"
    else return (" INTERPOLATE" : Phrase)
  else return {}

/-- Which of the rows are wanted. -/
structure Window where
  limit : Option Phrase := none
  offset : Option Phrase := none

def limits (g : Grammar) (w : Window) : Nat → Reader Window
  | 0 => return w
  | n + 1 => do
    let limit ←
      if (← whenever w.limit.isNone (keyword? "LIMIT")) then do
        if (← keyword? "ALL") then pure none else pure (some (← g.expr).toPhrase)
      else pure w.limit
    let offset : Option Phrase ←
      if (← whenever w.offset.isNone (keyword? "OFFSET")) then do
        let e ← g.expr
        let rows := match (← anyKeyword? ["ROW", "ROWS"]) with
          | some k => " " ++ k
          | none => ""
        pure (some (e ++ rows))
      else pure w.offset
    match limit, offset with
    | some skipped, none =>
      if (← whenever (g.isAny [.mysql, .plsql]) (symbol? ",")) then
        limits g ⟨some (← g.expr).toPhrase, some skipped⟩ n
      else limits g ⟨limit, offset⟩ n
    | _, _ => limits g ⟨limit, offset⟩ n

def fetch? (d : Dialect) : Reader String := do
  if (← keyword? "FETCH") then
    let _ ← anyKeyword ["FIRST", "NEXT"]
    let quantity ←
      if (← anyKeyword? ["ROW", "ROWS"]).isSome then pure ""
      else do
        let v ← value d
        let percent := if (← keyword? "PERCENT") then " PERCENT" else ""
        let _ ← anyKeyword ["ROW", "ROWS"]
        pure (v ++ percent ++ " ")
    let ending ←
      if (← keyword? "ONLY") then pure "ONLY"
      else do
        keywords ["WITH", "TIES"]
        pure "WITH TIES"
    return " FETCH FIRST " ++ quantity ++ "ROWS " ++ ending
  else return ""

def bracketedName? (d : Dialect) : Reader String := do
  if (← peekSymbol "(") then return "('" ++ (← parens (literalString d)) ++ "')" else return ""

def clauseOptions (option : Reader String) : Reader String := do
  let one : Reader (Option String) := do
    if (← symbol? ",") then return some (← option) else return none
  return String.join (← many one)

def rowFormat? (d : Dialect) : Reader (Option String) := do
  let root? : Reader String := do
    if (← keyword? "ROOT") then
      return ", ROOT('" ++ (← parens (literalString d)) ++ "')"
    else return ""
  if (← keyword? "XML") then
    let kind ← match (← anyKeyword ["RAW", "AUTO", "EXPLICIT", "PATH"]) with
      | "RAW" => do pure ("RAW" ++ (← bracketedName? d))
      | "PATH" => do pure ("PATH" ++ (← bracketedName? d))
      | k => pure k
    let options ← clauseOptions do
      if (← keyword? "ELEMENTS") then return ", ELEMENTS"
      else if (← keyword? "BINARY") then
        keyword "BASE64"
        return ", BINARY BASE64"
      else if (← keyword? "TYPE") then return ", TYPE"
      else root?
    return some (" FOR XML " ++ kind ++ options)
  else if (← keyword? "JSON") then
    let kind ← anyKeyword ["AUTO", "PATH"]
    let options ← clauseOptions do
      if (← keyword? "INCLUDE_NULL_VALUES") then return ", INCLUDE_NULL_VALUES"
      else if (← keyword? "WITHOUT_ARRAY_WRAPPER") then return ", WITHOUT_ARRAY_WRAPPER"
      else root?
    return some (" FOR JSON " ++ kind ++ options)
  else if (← keyword? "BROWSE") then return some " FOR BROWSE"
  else return none

def lockWait? : Reader String := do
  if (← keyword? "NOWAIT") then return " NOWAIT"
  else if (← keywords? ["SKIP", "LOCKED"]) then return " SKIP LOCKED"
  else return ""

def lock : Reader String := do
  let kind ← anyKeyword ["UPDATE", "SHARE"]
  let table := match (← after? "OF" objectName) with
    | some n => " OF " ++ n.text
    | none => ""
  let wait ← lockWait?
  return " FOR " ++ kind ++ table ++ wait

/-- Locks on rows, and the form in which rows are given back, which comes last. At most `bound`
clauses are read. -/
def forClausesUpTo (d : Dialect) : Nat → Reader String
  | 0 => fail
  | bound + 1 => do
    if (← keyword? "FOR") then
      match (← rowFormat? d) with
      | some format => return format
      | none =>
        let one ← lock
        return one ++ (← forClausesUpTo d bound)
    else return ""

def outputFormat? (d : Dialect) : Reader String := do
  if (← whenever (d = .plsql) (keyword? "FORMAT")) then
    return " FORMAT " ++ (← ident).text
  else return ""

def queryTail (g : Grammar) : Reader Phrase := do
  let order ← clause? ["ORDER", "BY"] do
    let items ← orderItems g
    return items ++ (← interpolate? g)
  let window ← limits g {} 2
  let groups : Phrase ← if g.dialect = .plsql then clause? ["BY"] (exprs g) else pure {}
  let settings ← settings? g.dialect
  let fetch ← fetch? g.dialect
  let locks ← forClausesUpTo g.dialect (← bound)
  let format ← outputFormat? g.dialect
  let limit := Phrase.optional " LIMIT " window.limit
  let offset := Phrase.optional " OFFSET " window.offset
  let settingsText := if settings.isEmpty then "" else " " ++ settings
  return {
    text := order.text ++ limit.text ++ offset.text ++ groups.text ++ settingsText ++ fetch ++ locks
      ++ format
    uses := order.uses ++ limit.uses ++ groups.uses ++ offset.uses }

/-- A query. Behind common table expressions it can also be an insertion or an update. -/
def queryWith (g : Grammar) : Reader Phrase := do
  let tables ← commonTables? g
  if (← keyword? "INSERT") then return tables ++ (← insert g)
  else if (← keyword? "UPDATE") then return tables ++ (← update g)
  else
    let body ← queryBody g
    return tables ++ body ++ (← queryTail g)

end SqlOutline.Sql.Grammar
