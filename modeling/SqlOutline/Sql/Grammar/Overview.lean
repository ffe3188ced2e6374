import SqlOutline.Sql.Grammar.Session

/-!
# Explanations and overviews

## Main definitions

* `explain`, `showOverview` — what is told about other statements or about objects.
-/

namespace SqlOutline.Sql.Grammar

open Reader

/-! ## Explanations -/

def utilityOption (g : Grammar) : Reader (List Use) := do
  let _ ← ident
  if (← peekSymbol ",") || (← peekSymbol ")") then return [] else return (← g.expr).uses

def explanationOptions (g : Grammar) (word : String) : Reader (List Use) := do
  if word = "EXPLAIN" && g.isAny [.postgresql, .plsql] && (← peekSymbol "(") then
    return (← parens (commaSeparated (utilityOption g))).flatten
  else
    if !(← keywords? ["QUERY", "PLAN"]) then
      let _ ← keyword? "ANALYZE"
      let _ ← keyword? "VERBOSE"
      let _ ← after? "FORMAT" (anyKeyword ["TEXT", "JSON", "GRAPHVIZ"])
    return []

/-- An explanation of a statement, or of a table, behind its keyword. Only what is no statement is a
table, and an explanation itself cannot be explained. -/
def explain (g : Grammar) (word : String) : Reader Statement := do
  let options ← explanationOptions g word
  match (← attempt g.statement) with
  | some s =>
    if s.tree = .explanation then fail
    else return { tree := .explanation, uses := s.uses ++ options }
  | none =>
    let _ ← anyKeyword? ["EXTENDED", "FORMATTED"]
    return { tree := .explanation, uses := [.relation (← objectName)] }

/-! ## Overviews -/

def showFilter (g : Grammar) : Reader (List Use) := do
  if (← anyKeyword? ["LIKE", "ILIKE"]).isSome then
    let _ ← literalString g.dialect
    return []
  else if (← keyword? "WHERE") then return (← g.expr).uses
  else
    let _ ← attempt (literalString g.dialect)
    return []

/-- What holds the objects of an overview, behind `FROM` or `IN`. Its name may be missing behind its
kind, and of two names the second comes first. -/
def showParent : Reader (Option ObjectName) := do
  match (← anyKeyword? ["ACCOUNT", "DATABASE", "SCHEMA", "TABLE", "VIEW"]) with
  | some kind =>
    let nameless := startsWithKeywords ["STARTS", "WITH"] (← rest) || (← peekKeyword "LIMIT")
    if (kind = "DATABASE" || kind = "SCHEMA") && nameless then return none
    else attempt objectName
  | none =>
    let name ← objectName
    if (← anyKeyword? ["FROM", "IN"]).isSome then return some ((← ident) :: name)
    else return some name

def showOptions (g : Grammar) : Reader (List Use) := do
  let parent ← if (← anyKeyword? ["FROM", "IN"]).isSome then showParent else pure none
  let filter ← showFilter g
  let _ ← afterAll? ["STARTS", "WITH"] (value g.dialect)
  let limit : List Use ←
    if (← keyword? "LIMIT") then do
      if (← keyword? "ALL") then pure [] else pure (← g.expr).uses
    else pure []
  let _ ← after? "FROM" (value g.dialect)
  return parent.toList.map .relation ++ limit ++ filter

/-- An overview of settings, or how an object was created. A single setting takes all tokens before
the next equals sign. -/
def showSetting (g : Grammar) : Reader (List Use) := do
  let lenient := g.isAny [.mysql, .plsql]
  if (← keyword? "CREATE") then
    let _ ← anyKeyword ["TABLE", "TRIGGER", "FUNCTION", "PROCEDURE", "EVENT", "VIEW"]
    let _ ← objectName
    return []
  else if (← keyword? "COLLATION") then showFilter g
  else if (← keyword? "VARIABLES") && lenient then showFilter g
  else if (← keyword? "STATUS") && lenient then showFilter g
  else if (← anyKeyword? ["DATABASES", "SCHEMAS"]).isSome then
    let _ ← keyword? "HISTORY"
    showOptions g
  else
    setRest ((← rest).dropWhile fun t => !t.isSymbol "=")
    return []

/-- An overview behind `SHOW`. -/
def showOverview (g : Grammar) : Reader Statement := do
  let _ ← keyword? "TERSE"
  let extended ← keyword? "EXTENDED"
  let full ← keyword? "FULL"
  let _ ← keyword? "SESSION"
  let _ ← keyword? "GLOBAL"
  let outside ← keyword? "EXTERNAL"
  if (← anyKeyword? ["COLUMNS", "FIELDS"]).isSome then return { uses := ← showOptions g }
  else if (← keyword? "TABLES") then
    let _ ← whenever (!outside) (keyword? "HISTORY")
    return { uses := ← showOptions g }
  else if (← keywords? ["MATERIALIZED", "VIEWS"]) then return { uses := ← showOptions g }
  else if (← keyword? "VIEWS") then return { uses := ← showOptions g }
  else if (← keyword? "FUNCTIONS") then return { uses := ← showFilter g }
  else if extended || full then fail
  else return { uses := ← showSetting g }

end SqlOutline.Sql.Grammar
