import SqlOutline.Sql.Grammar.Expr
import SqlOutline.Sql.Grammar.RowPattern

/-!
# Tables of a query

## Main definitions

* `tableWithJoins` — tables, functions in place of tables, queries in parentheses, and joins of
  these.
-/

namespace SqlOutline.Sql.Grammar

open Reader

/-! ## Other names -/

def reservedForColumns : List String :=
  ["WITH", "EXPLAIN", "ANALYZE", "SELECT", "WHERE", "GROUP", "SORT", "HAVING", "ORDER", "TOP",
    "LATERAL", "VIEW", "LIMIT", "OFFSET", "FETCH", "UNION", "EXCEPT", "INTERSECT", "CLUSTER",
    "DISTRIBUTE", "RETURNING", "FROM", "INTO", "END"]

def reservedForTables : List String :=
  ["WITH", "EXPLAIN", "ANALYZE", "SELECT", "WHERE", "GROUP", "SORT", "HAVING", "ORDER", "PIVOT",
    "UNPIVOT", "TOP", "LATERAL", "VIEW", "LIMIT", "OFFSET", "FETCH", "UNION", "EXCEPT",
    "INTERSECT", "ON", "JOIN", "INNER", "CROSS", "FULL", "LEFT", "RIGHT", "NATURAL", "USING",
    "CLUSTER", "DISTRIBUTE", "GLOBAL", "ANTI", "SEMI", "RETURNING", "OUTER", "SET", "QUALIFY",
    "WINDOW", "END", "FOR", "PARTITION", "PREWHERE", "SETTINGS", "FORMAT", "START", "CONNECT",
    "MATCH_RECOGNIZE"]

def otherName? (reserved : List String) : Reader (Option Ident) := do
  let as ← keyword? "AS"
  match (← peek) with
  | some (.word w) =>
    if as || !reserved.contains w.keyword then
      skip 1
      return some (ofWord w)
    else return none
  | some (.quoted s) =>
    skip 1
    return some ⟨s, some '\''⟩
  | some (.doubleQuoted s) =>
    skip 1
    return some ⟨s, some '"'⟩
  | _ => if as then fail else return none

def namedColumns (g : Grammar) : Reader String := do
  if (← peekSymbol "(") then
    let column : Reader String := do
      let name ← ident
      match (← attempt (dataType g)) with
      | some t => return name.text ++ " " ++ t.text
      | none => return name.text
    let columns ← parens (commaSeparated column)
    return " (" ++ ", ".intercalate columns ++ ")"
  else return ""

def tableAlias? (g : Grammar) : Reader (Option String) := do
  match (← otherName? reservedForTables) with
  | some name => return some (name.text ++ (← namedColumns g))
  | none => return none

def aliasText : Option String → String
  | some name => " AS " ++ name
  | none => ""

/-! ## Special tables -/

/-- A table of a query. -/
structure Factor where
  phrase : Phrase
  /-- It has another name. -/
  named : Bool := false
  /-- It is a join in parentheses. -/
  joined : Bool := false

def Factor.ofAlias (p : Phrase) (other : Option String) : Factor :=
  { phrase := p ++ aliasText other, named := other.isSome }

def plainArguments (g : Grammar) : Reader Phrase := do
  let args ← commaSeparatedOrNone (functionArg g) ")"
  symbol ")"
  return "(" ++ Phrase.list args ++ ")"

def derived (g : Grammar) (lateral : String) : Reader Factor := do
  let q ← g.query
  symbol ")"
  return .ofAlias (lateral ++ "(" ++ q ++ ")") (← tableAlias? g)

def values (g : Grammar) : Reader Phrase := do
  let row : Reader (Bool × Phrase) := do
    let explicit ← keyword? "ROW"
    let items ← parens (if g.dialect = .mysql then commaSeparatedOrNone g.expr ")"
      else commaSeparated g.expr)
    return (explicit, "(" ++ Phrase.list (phrases items) ++ ")")
  let rows ← commaSeparated row
  let mark := if rows.any (·.1) then "ROW" else ""
  return "VALUES " ++ Phrase.list (rows.map (·.2.behind mark))

def replacement? (d : Dialect) : Reader (Option String) := do
  if (← keyword? "NULL") then return some "NULL"
  else if (← keyword? "ERROR") then return some "ERROR"
  else if (← keyword? "DEFAULT") then return some ("DEFAULT " ++ (← value d))
  else return none

def missingValue? (d : Dialect) : Reader (Option String) := do
  match (← replacement? d) with
  | none => return none
  | some t =>
    keyword "ON"
    return some (" " ++ t ++ " ON " ++ (← anyKeyword ["EMPTY", "ERROR"]))

def documentColumnUpTo (g : Grammar) : Nat → Reader String
  | 0 => fail
  | bound + 1 => do
    let d := g.dialect
    if (← keyword? "NESTED") then
      let _ ← keyword? "PATH"
      let path ← value d
      keyword "COLUMNS"
      let columns ← parens (commaSeparated (documentColumnUpTo g bound))
      return "NESTED PATH " ++ path ++ " COLUMNS (" ++ ", ".intercalate columns ++ ")"
    else
      let name ← ident
      if (← keyword? "FOR") then
        keyword "ORDINALITY"
        return name.text ++ " FOR ORDINALITY"
      else
        let t ← dataType g
        let exists? := if (← keyword? "EXISTS") then " EXISTS" else ""
        keyword "PATH"
        let path ← value d
        let treatments ← many (missingValue? d)
        return name.text ++ " " ++ t.text ++ exists? ++ " PATH " ++ path ++ String.join treatments

def documentTable (g : Grammar) : Reader Factor := do
  let e ← g.expr
  symbol ","
  let path ← value g.dialect
  keyword "COLUMNS"
  let columns ← parens do
    let bound ← bound
    commaSeparated (documentColumnUpTo g bound)
  symbol ")"
  return .ofAlias
    ("JSON_TABLE(" ++ e ++ ", " ++ path ++ " COLUMNS(" ++ ", ".intercalate columns ++ "))")
    (← tableAlias? g)

def openedTable (g : Grammar) : Reader Factor := do
  let e ← g.expr
  let path ← if (← symbol? ",") then do pure (", " ++ (← value g.dialect)) else pure ""
  symbol ")"
  let column : Reader String := do
    let name ← ident
    let t ← dataType g
    let path ← match (← peek) with
      | some (.quoted s) => do
        skip 1
        pure (" " ++ quoteWith '\'' s)
      | _ => pure ""
    let json ←
      if (← keyword? "AS") then do
        keyword "JSON"
        pure " AS JSON"
      else pure ""
    return name.text ++ " " ++ t.text ++ path ++ json
  let columns ← after? "WITH" (parens (commaSeparated column))
  let columnsText := match columns with
    | some cs => " WITH (" ++ ", ".intercalate cs ++ ")"
    | none => ""
  return .ofAlias ("OPENJSON(" ++ e ++ path ++ ")" ++ columnsText) (← tableAlias? g)

/-- Arrays in place of a table, behind `UNNEST`. A `WITH` behind it is taken even if no offset
follows. -/
def unnested (g : Grammar) : Reader Factor := do
  let arrays ← parens (commaSeparated g.expr)
  let ordinality := if (← keywords? ["WITH", "ORDINALITY"]) then " WITH ORDINALITY" else ""
  let name ← tableAlias? g
  let hasOffset ← if (← keyword? "WITH") then keyword? "OFFSET" else pure false
  let offset ←
    if hasOffset then do
      let name ← otherName? reservedForColumns
      pure (" WITH OFFSET" ++ aliasText (name.map (·.text)))
    else pure ""
  let p : Phrase := "UNNEST(" ++ Phrase.list (phrases arrays) ++ ")" ++ ordinality
  return { phrase := p ++ aliasText name ++ offset, named := name.isSome }

/-! ## Turned tables -/

def pivot (g : Grammar) (table : Phrase) : Reader Factor := do
  symbol "("
  let aggregate : Reader Phrase := do
    match (← next) with
    | some (.word w) =>
      let c ← call g [⟨w.value, none⟩]
      match (← after? "AS" ident) with
      | some name => return c.expr ++ " AS " ++ name.text
      | none => return c.expr.toPhrase
    | _ => fail
  let aggregates ← commaSeparated aggregate
  keyword "FOR"
  let column ← objectName
  keyword "IN"
  symbol "("
  let source : Phrase ←
    if (← keyword? "ANY") then do
      match (← afterAll? ["ORDER", "BY"] (orderItems g)) with
      | some order => pure ("ANY ORDER BY " ++ order)
      | none => pure ("ANY" : Phrase)
    else if (← peekAny ["SELECT", "WITH"]) then g.query
    else do
      let item : Reader Phrase := do
        let e ← g.expr
        match (← after? "AS" ident) with
        | some name => return e ++ " AS " ++ name.text
        | none => return e.toPhrase
      pure (Phrase.list (← commaSeparated item))
  symbol ")"
  let missing ← afterAll? ["DEFAULT", "ON", "NULL"] (parens g.expr)
  symbol ")"
  let missingText := Phrase.optional " DEFAULT ON NULL (" (missing.map fun e => e ++ ")")
  return .ofAlias
    (table ++ " PIVOT(" ++ Phrase.list aggregates ++ " FOR " ++ column.text ++ " IN (" ++ source
      ++ ")" ++ missingText ++ ")")
    (← tableAlias? g)

def unpivot (g : Grammar) (table : Phrase) : Reader Factor := do
  symbol "("
  let value ← ident
  keyword "FOR"
  let name ← ident
  keyword "IN"
  let columns ← columnList
  symbol ")"
  return .ofAlias
    (table ++ " UNPIVOT(" ++ value.text ++ " FOR " ++ name.text ++ " IN ("
      ++ ", ".intercalate (columns.map (·.text)) ++ "))")
    (← tableAlias? g)

def turnedUpTo (g : Grammar) (table : Factor) : Nat → Reader Factor
  | 0 => fail
  | bound + 1 => do
    match (← anyKeyword? ["PIVOT", "UNPIVOT"]) with
    | some "PIVOT" => turnedUpTo g (← pivot g table.phrase) bound
    | some _ => turnedUpTo g (← unpivot g table.phrase) bound
    | none => return table

def turned (g : Grammar) (table : Factor) : Reader Factor := do turnedUpTo g table (← bound)

/-! ## Named tables -/

def settings? (d : Dialect) : Reader String := do
  if (← whenever (d = .plsql) (keyword? "SETTINGS")) then
    let setting : Reader String := do
      let name ← ident
      symbol "="
      return name.text ++ " = " ++ (← value d)
    return "SETTINGS " ++ ", ".intercalate (← commaSeparated setting)
  else return ""

/-- Arguments of a function in place of a table, behind the opening parenthesis, at most `bound`.
Settings may end them. -/
def tableArgumentsUpTo (g : Grammar) : Nat → Reader (List Phrase)
  | 0 => fail
  | bound + 1 => do
    let settings ← settings? g.dialect
    if !settings.isEmpty then return [(settings : Phrase)]
    else
      let arg ← functionArg g
      if (← symbol? ",") then return arg :: (← tableArgumentsUpTo g bound) else return [arg]

def tableArguments? (g : Grammar) : Reader (Option Phrase) := do
  if (← symbol? "(") then
    if (← symbol? ")") then return some "()"
    else
      let args ← tableArgumentsUpTo g (← bound)
      symbol ")"
      return some ("(" ++ Phrase.list args ++ ")")
  else return none

def hints? (g : Grammar) : Reader Phrase := do
  if (← peekKeyword "WITH") && (← peekAt 1).any (·.isSymbol "(") then
    skip 1
    let hints ← parens (commaSeparated g.expr)
    return " WITH (" ++ Phrase.list (phrases hints) ++ ")"
  else return {}

def namedTable (g : Grammar) : Reader Factor := do
  let name ← objectName
  let partitions ←
    if (← whenever (g.isAny [.mysql, .plsql]) (keyword? "PARTITION")) then do
      pure (" PARTITION (" ++ ", ".intercalate ((← columnList).map (·.text)) ++ ")")
    else pure ""
  let version : Phrase ←
    if (← whenever (g.dialect = .tsql) (keywords? ["FOR", "SYSTEM_TIME", "AS", "OF"])) then do
      pure (" FOR SYSTEM_TIME AS OF " ++ (← g.expr))
    else pure {}
  let args ← tableArguments? g
  let ordinality := if (← keywords? ["WITH", "ORDINALITY"]) then " WITH ORDINALITY" else ""
  let other ← tableAlias? g
  let hints ← hints? g
  let argsPhrase := args.getD {}
  let table : Phrase :=
    name.text ++ partitions ++ argsPhrase ++ ordinality ++ aliasText other ++ hints ++ version
  let function := if args.isSome then [Use.tableFunction name] else []
  let table ← turned g {
    phrase := ⟨table.text, function ++ .relation name :: table.uses⟩
    named := other.isSome }
  if (← whenever (g.dialect = .plsql) (keyword? "MATCH_RECOGNIZE")) then
    let matching ← rowMatching g
    return .ofAlias (table.phrase ++ matching) (← tableAlias? g)
  else return table

/-! ## Joins -/

def joinCondition (g : Grammar) : Reader Phrase := do
  if (← keyword? "ON") then return " ON " ++ (← g.expr)
  else if (← keyword? "USING") then
    return (" USING(" ++ ", ".intercalate ((← columnList).map (·.text)) ++ ")" : Phrase)
  else return {}

def joinWords? : Reader (Option String) := do
  if (← peekAny ["INNER", "JOIN"]) then
    let _ ← keyword? "INNER"
    keyword "JOIN"
    return some "JOIN"
  else
    match (← anyKeyword? ["LEFT", "RIGHT", "FULL", "ANTI", "SEMI"]) with
    | some "FULL" =>
      let _ ← keyword? "OUTER"
      keyword "JOIN"
      return some "FULL JOIN"
    | some "ANTI" =>
      keyword "JOIN"
      return some "ANTI JOIN"
    | some "SEMI" =>
      keyword "JOIN"
      return some "SEMI JOIN"
    | some side =>
      match (← anyKeyword ["OUTER", "SEMI", "ANTI", "JOIN"]) with
      | "JOIN" => return some (side ++ " JOIN")
      | "OUTER" =>
        keyword "JOIN"
        return some (side ++ " JOIN")
      | kind =>
        keyword "JOIN"
        return some (side ++ " " ++ kind ++ " JOIN")
    | none => return none

def join? (g : Grammar) (factor : Reader Factor) : Reader (Option Phrase) := do
  let everywhere := if (← keyword? "GLOBAL") then " GLOBAL" else ""
  if (← keyword? "CROSS") then
    let kind ← anyKeyword ["JOIN", "APPLY"]
    return some (everywhere ++ " CROSS " ++ kind ++ " " ++ (← factor).phrase)
  else if (← keyword? "OUTER") then
    keyword "APPLY"
    return some (everywhere ++ " OUTER APPLY " ++ (← factor).phrase)
  else if (← keyword? "ASOF") then
    keyword "JOIN"
    let table ← factor
    keyword "MATCH_CONDITION"
    let condition ← parens g.expr
    return some (everywhere ++ " ASOF JOIN " ++ table.phrase ++ " MATCH_CONDITION (" ++ condition
      ++ ")" ++ (← joinCondition g))
  else
    let natural ← keyword? "NATURAL"
    match (← joinWords?) with
    | some words =>
      let table ← factor
      let condition : Phrase ← if natural then pure {} else joinCondition g
      let mark := if natural then " NATURAL " else " "
      return some (everywhere ++ mark ++ words ++ " " ++ table.phrase ++ condition)
    | none => if natural || (← peekKeyword "OUTER") then fail else return none

def joinedTables (g : Grammar) (factor : Reader Factor) : Reader (Factor × List Phrase) := do
  let first ← factor
  return (first, ← many (join? g factor))

/-- Joined tables behind an opening parenthesis, and the closing one. One dialect takes a table
alone. -/
def nestedJoin (g : Grammar) (factor : Reader Factor) : Reader Factor := do
  let (first, joins) ← joinedTables g factor
  if !joins.isEmpty || first.joined then
    symbol ")"
    let other ← tableAlias? g
    return { Factor.ofAlias ("(" ++ first.phrase ++ Phrase.join "" joins ++ ")") other with
      joined := true }
  else if g.dialect = .plsql then
    symbol ")"
    match (← tableAlias? g) with
    | some name =>
      if first.named then fail
      else return { first with phrase := first.phrase ++ aliasText (some name), named := true }
    | none => return first
  else fail

/-- One table, function or query, or joined tables, with at most `bound` parentheses inside each
other. -/
def tableFactorUpTo (g : Grammar) : Nat → Reader Factor
  | 0 => fail
  | bound + 1 => do
    if (← keyword? "LATERAL") then
      if (← symbol? "(") then derived g "LATERAL "
      else
        let name ← objectName
        symbol "("
        let args ← plainArguments g
        return .ofAlias ("LATERAL " ++ name.text ++ args) (← tableAlias? g)
    else if (← keyword? "TABLE") then
      let e ← parens g.expr
      return .ofAlias ("TABLE(" ++ e ++ ")") (← tableAlias? g)
    else if (← symbol? "(") then
      match (← attempt (derived g "")) with
      | some table => turned g table
      | none => nestedJoin g (tableFactorUpTo g bound)
    else
      let bracket := (← peekAt 1).any (·.isSymbol "(")
      if g.dialect = .plsql && bracket && (← peekKeyword "VALUES") then
        skip 1
        let rows ← values g
        return .ofAlias ("(" ++ rows ++ ")") (← tableAlias? g)
      else if g.isAny [.postgresql, .plsql] && (← peekKeyword "UNNEST") then
        skip 1
        unnested g
      else if bracket && (← peekKeyword "JSON_TABLE") then
        skip 2
        documentTable g
      else if bracket && (← peekKeyword "OPENJSON") then
        skip 2
        openedTable g
      else namedTable g

/-- One table, function or query, or joined tables in parentheses. -/
def tableFactor (g : Grammar) : Reader Factor := do tableFactorUpTo g (← bound)

/-- A table and what is joined to it. -/
def tableWithJoins (g : Grammar) : Reader Phrase := do
  let (first, joins) ← joinedTables g (tableFactor g)
  return first.phrase ++ Phrase.join "" joins

end SqlOutline.Sql.Grammar
