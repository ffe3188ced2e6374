import SqlOutline.Sql.Grammar.Table

/-!
# Selections

## Main definitions

* `select` — columns from tables, with the clauses that filter, group and window the rows.
-/

namespace SqlOutline.Sql.Grammar

open Reader

def exprs (g : Grammar) : Reader Phrase := do
  return Phrase.list (phrases (← commaSeparated g.expr))

/-! ## Columns -/

def oneOrSeveral (one : Reader Phrase) : Reader Phrase := do
  if (← peekSymbol "(") then
    return "(" ++ Phrase.list (← parens (commaSeparated one)) ++ ")"
  else one

def identPhrase : Reader Phrase := do return ((← ident).text : Phrase)

def renamedColumn : Reader Phrase := do
  let name ← ident
  keyword "AS"
  return (name.text ++ " AS " ++ (← ident).text : Phrase)

def replacedColumn (g : Grammar) : Reader Phrase := do
  let e ← g.expr
  let as := if (← keyword? "AS") then " AS " else " "
  return e ++ as ++ (← ident).text

def starOptions (g : Grammar) : Reader Phrase := do
  if g.dialect != .plsql then return {}
  let ilike : Phrase ←
    if (← keyword? "ILIKE") then do
      match (← next) with
      | some (.quoted s) => pure (" ILIKE " ++ quoteWith '\'' s : Phrase)
      | _ => fail
    else pure {}
  let exclude : Phrase ←
    if (← whenever ilike.text.isEmpty (keyword? "EXCLUDE")) then do
      pure (" EXCLUDE " ++ (← oneOrSeveral identPhrase))
    else pure {}
  let except : Phrase ←
    if (← keyword? "EXCEPT") then do
      if (← peekSymbol "(") then pure (" EXCEPT " ++ (← oneOrSeveral identPhrase))
      else pure (" EXCEPT (" ++ (← identPhrase) ++ ")")
    else pure {}
  let replace : Phrase ←
    if (← keyword? "REPLACE") then do
      pure (" REPLACE (" ++ Phrase.list (← parens (commaSeparated (replacedColumn g))) ++ ")")
    else pure {}
  let rename : Phrase ←
    if (← keyword? "RENAME") then do pure (" RENAME " ++ (← oneOrSeveral renamedColumn))
    else pure {}
  return ilike ++ exclude ++ except ++ replace ++ rename

/-- A column of a selection: an expression, perhaps with another name, or a star. In one dialect an
equation gives its right side the name on its left. -/
def selectItem (g : Grammar) : Reader Phrase := do
  let e ← wildcardOr g
  match e.shape with
  | .wildcard => return e ++ (← starOptions g)
  | shape =>
    match shape, g.dialect with
    | .assignment target value, .tsql => return value ++ " AS " ++ target.text
    | _, _ =>
      let isFrom := match shape with
        | .ident i => i.quote.isNone && i.value.toUpper == "FROM"
        | _ => false
      if isFrom then fail
      match (← otherName? reservedForColumns) with
      | some name => return e ++ " AS " ++ name.text
      | none => return e.toPhrase

def selectItems (g : Grammar) : Reader Phrase := do
  return Phrase.list (← commaSeparated (selectItem g))

/-! ## Clauses -/

def duplicates (g : Grammar) : Reader Phrase := do
  let all ← keyword? "ALL"
  if (← keyword? "DISTINCT") then
    if all then fail
    else if (← keyword? "ON") then
      let columns ← parens (commaSeparatedOrNone g.expr ")")
      return " DISTINCT ON (" ++ Phrase.list (phrases columns) ++ ")"
    else return (" DISTINCT" : Phrase)
  else return {}

def top? (g : Grammar) : Reader Phrase := do
  if (← keyword? "TOP") then
    let quantity : Phrase ←
      if (← symbol? "(") then do
        let e ← g.expr
        symbol ")"
        pure ("(" ++ e ++ ")")
      else pure (toString (← uint) : Phrase)
    let percent := if (← keyword? "PERCENT") then " PERCENT" else ""
    let ties := if (← keywords? ["WITH", "TIES"]) then " WITH TIES" else ""
    return " TOP " ++ quantity ++ percent ++ ties
  else return {}

def into? : Reader Phrase := do
  if (← keyword? "INTO") then
    let temporary := if (← anyKeyword? ["TEMP", "TEMPORARY"]).isSome then " TEMPORARY" else ""
    let unlogged := if (← keyword? "UNLOGGED") then " UNLOGGED" else ""
    let table := if (← keyword? "TABLE") then " TABLE" else ""
    return (" INTO" ++ temporary ++ unlogged ++ table ++ " " ++ (← objectName).text : Phrase)
  else return {}

def lateralView? (g : Grammar) : Reader (Option Phrase) := do
  if (← keywords? ["LATERAL", "VIEW"]) then
    let outer := if (← keyword? "OUTER") then " OUTER" else ""
    let e ← g.expr
    let name ← objectName
    let columns ← commaSeparated
      (otherName? ["WHERE", "GROUP", "CLUSTER", "HAVING", "LATERAL"])
    let names := ", ".intercalate (columns.filterMap id |>.map (·.text))
    let columnsText := if names.isEmpty then "" else " AS " ++ names
    return some (" LATERAL VIEW" ++ outer ++ " " ++ e ++ " " ++ name.text ++ columnsText)
  else return none

def groupingTuple (g : Grammar) (single : Bool) : Reader (List Expr) := do
  if single && !(← peekSymbol "(") then return [← g.expr]
  else parens (commaSeparatedOrNone g.expr ")")

def groupingSets (g : Grammar) (words : String) (single : Bool) : Reader Phrase := do
  let sets ← parens (commaSeparated (groupingTuple g single))
  let one (es : List Expr) : Phrase :=
    if single && es.length = 1 then Phrase.list (phrases es)
    else "(" ++ Phrase.list (phrases es) ++ ")"
  return words ++ " (" ++ Phrase.list (sets.map one) ++ ")"

def groupItem (g : Grammar) : Reader Phrase := do
  if g.isAny [.postgresql, .plsql] then
    if (← keywords? ["GROUPING", "SETS"]) then groupingSets g "GROUPING SETS" false
    else if (← keyword? "CUBE") then groupingSets g "CUBE" true
    else if (← keyword? "ROLLUP") then groupingSets g "ROLLUP" true
    else if (← peekSymbol "(") && (← peekAt 1).any (·.isSymbol ")") then
      skip 2
      return ("()" : Phrase)
    else return (← g.expr).toPhrase
  else return (← g.expr).toPhrase

def groupBy? (g : Grammar) : Reader Phrase := do
  if (← keywords? ["GROUP", "BY"]) then
    let items : Phrase ←
      if (← keyword? "ALL") then pure ("ALL" : Phrase)
      else pure (Phrase.list (← commaSeparated (groupItem g)))
    let modifier : Reader (Option String) := do
      if (← whenever (g.dialect = .plsql) (keyword? "WITH")) then
        return some (" WITH " ++ (← anyKeyword ["ROLLUP", "CUBE", "TOTALS"]))
      else return none
    return " GROUP BY " ++ items ++ String.join (← many modifier)
  else return {}

def namedWindow (g : Grammar) : Reader Phrase := do
  let name ← ident
  keyword "AS"
  if (← symbol? "(") then return name.text ++ " AS (" ++ (← windowSpec g) ++ ")"
  else if g.dialect = .plsql then return (name.text ++ " AS " ++ (← ident).text : Phrase)
  else fail

/-- Named windows and the condition on their results, in either order. The windows are met first. -/
def windows? (g : Grammar) : Reader Phrase := do
  let windows : Reader Phrase := do
    return " WINDOW " ++ Phrase.list (← commaSeparated (namedWindow g))
  let qualify : Reader Phrase := do return " QUALIFY " ++ (← g.expr)
  if (← keyword? "WINDOW") then
    let w ← windows
    return w ++ ((← after? "QUALIFY" qualify).getD {})
  else if (← keyword? "QUALIFY") then
    let q ← qualify
    let w := (← after? "WINDOW" windows).getD {}
    return ⟨q.text ++ w.text, w.uses ++ q.uses⟩
  else return {}

def hierarchically {α : Type} (p : Reader α) : Reader α := do
  let before := (← get).hierarchical
  modify fun s => { s with hierarchical := true }
  let a ← p
  modify fun s => { s with hierarchical := before }
  return a

def connectBy? (g : Grammar) : Reader Phrase := do
  if g.isAny [.tsql, .plsql] && (← peekAny ["START", "CONNECT"]) then
    if (← keywords? ["CONNECT", "BY"]) then
      let steps ← hierarchically (exprs g)
      keywords ["START", "WITH"]
      let start ← g.expr
      return " START WITH " ++ start ++ " CONNECT BY " ++ steps
    else
      keywords ["START", "WITH"]
      let start ← g.expr
      keywords ["CONNECT", "BY"]
      return " START WITH " ++ start ++ " CONNECT BY " ++ (← hierarchically (exprs g))
  else return {}

def clause? (ks : List String) (p : Reader Phrase) : Reader Phrase := do
  if (← keywords? ks) then return " " ++ " ".intercalate ks ++ " " ++ (← p) else return {}

def exprPhrase (g : Grammar) : Reader Phrase := do return (← g.expr).toPhrase

/-- A selection, with its keyword. -/
def select (g : Grammar) : Reader Phrase := do
  keyword "SELECT"
  let duplicates ← duplicates g
  let top ← top? g
  let items ← selectItems g
  let into ← into?
  let tables ← clause? ["FROM"] do return Phrase.list (← commaSeparated (tableWithJoins g))
  let views ← many (lateralView? g)
  let prewhere : Phrase ←
    if g.dialect = .plsql then clause? ["PREWHERE"] (exprPhrase g) else pure {}
  let condition ← clause? ["WHERE"] (exprPhrase g)
  let groups ← groupBy? g
  let cluster ← clause? ["CLUSTER", "BY"] (exprs g)
  let distribute ← clause? ["DISTRIBUTE", "BY"] (exprs g)
  let sort ← clause? ["SORT", "BY"] (exprs g)
  let having ← clause? ["HAVING"] (exprPhrase g)
  let windows ← windows? g
  let hierarchy ← connectBy? g
  return "SELECT" ++ duplicates ++ top ++ " " ++ items ++ into ++ tables ++ Phrase.join "" views
    ++ prewhere ++ condition ++ groups ++ cluster ++ distribute ++ sort ++ having ++ windows
    ++ hierarchy

end SqlOutline.Sql.Grammar
