import SqlOutline.Sql.Grammar.Session

/-!
# Upkeep of stored rows

## Main definitions

* `truncate`, `analyze`, `copyRows`, `cacheTable` — what empties, tidies up or copies what is
  stored.
-/

namespace SqlOutline.Sql.Grammar

open Reader

/-! ## Tables -/

/-- The emptying of tables behind `TRUNCATE`. -/
def truncate (g : Grammar) : Reader Statement := do
  let _ ← keyword? "TABLE"
  let _ ← keyword? "ONLY"
  let names ← commaSeparated objectName
  let partitions ← after? "PARTITION" (parens (exprs g))
  if g.isAny [.postgresql, .plsql] then
    if !(← keywords? ["RESTART", "IDENTITY"]) then
      let _ ← keywords? ["CONTINUE", "IDENTITY"]
    let _ ← anyKeyword? ["CASCADE", "RESTRICT"]
  onCluster?
  return { uses := names.map .relation ++ partitions.elim [] (·.uses) }

/-- Clauses on what is analysed, at most `bound`. Of several lists of partitions the last one holds.
-/
def analyzedUpTo (g : Grammar) (partitions : List Use) : Nat → Reader (List Use)
  | 0 => return partitions
  | bound + 1 => do
    match (← anyKeyword? ["PARTITION", "NOSCAN", "FOR", "CACHE", "COMPUTE"]) with
    | some "PARTITION" => analyzedUpTo g (← parens (exprs g)).uses bound
    | some "FOR" =>
      keyword "COLUMNS"
      let _ ← attempt (commaSeparated ident)
      analyzedUpTo g partitions bound
    | some "CACHE" =>
      keyword "METADATA"
      analyzedUpTo g partitions bound
    | some "COMPUTE" =>
      keyword "STATISTICS"
      analyzedUpTo g partitions bound
    | some _ => analyzedUpTo g partitions bound
    | none => return partitions

/-- The gathering of statistics behind `ANALYZE`. -/
def analyze (g : Grammar) : Reader Statement := do
  keyword "TABLE"
  let name ← objectName
  return { uses := .relation name :: (← analyzedUpTo g [] (← bound)) }

def repair : Reader Statement := do
  let _ ← keyword? "REPAIR"
  keyword "TABLE"
  let name ← objectName
  let _ ← attempt do
    let _ ← anyKeyword? ["ADD", "DROP", "SYNC"]
    keyword "PARTITIONS"
  return { uses := [.relation name] }

/-- The tidying of a table behind `OPTIMIZE`. -/
def optimize (g : Grammar) : Reader Statement := do
  keyword "TABLE"
  let _ ← objectName
  onCluster?
  let partition : List Use ←
    if (← keyword? "PARTITION") then do
      if (← keyword? "ID") then
        let _ ← ident
        pure []
      else pure (← g.expr).uses
    else pure []
  let _ ← keyword? "FINAL"
  let distinct : List Use ←
    if (← keywords? ["DEDUPLICATE", "BY"]) then do pure (← g.expr).uses
    else do
      let _ ← keyword? "DEDUPLICATE"
      pure []
  return { uses := partition ++ distinct }

/-! ## Files -/

def literalByte (d : Dialect) : Reader Unit := do
  if (← literalString d).utf8ByteSize != 1 then fail

def copyOption (g : Grammar) : Reader Unit := do
  match (← anyKeyword ["FORMAT", "FREEZE", "DELIMITER", "NULL", "HEADER", "QUOTE", "ESCAPE",
    "FORCE_QUOTE", "FORCE_NOT_NULL", "FORCE_NULL", "ENCODING"]) with
  | "FORMAT" =>
    let _ ← ident
  | "FREEZE" | "HEADER" =>
    let _ ← anyKeyword? ["TRUE", "FALSE"]
  | "FORCE_QUOTE" | "FORCE_NOT_NULL" | "FORCE_NULL" =>
    let _ ← columnList
  | "NULL" | "ENCODING" =>
    let _ ← literalString g.dialect
  | _ => literalByte g.dialect

def bareValuesOption (d : Dialect) : Reader Unit := do
  match (← anyKeyword ["HEADER", "QUOTE", "ESCAPE", "FORCE"]) with
  | "HEADER" => return
  | "FORCE" =>
    if !(← keywords? ["NOT", "NULL"]) then keyword "QUOTE"
    let _ ← commaSeparated ident
  | _ =>
    let _ ← keyword? "AS"
    literalByte d

def bareCopyOption (d : Dialect) : Reader Unit := do
  match (← anyKeyword ["BINARY", "DELIMITER", "NULL", "CSV"]) with
  | "BINARY" => return
  | "DELIMITER" =>
    let _ ← keyword? "AS"
    literalByte d
  | "NULL" =>
    let _ ← keyword? "AS"
    let _ ← literalString d
  | _ =>
    let _ ← many (attempt (bareValuesOption d))

/-- What is left behind rows that follow a statement itself. A backslash and a full stop end them; a
backslash before another token takes it along. -/
def behindRows : List Token → List Token
  | [] => []
  | t :: ts =>
    if t.isSymbol "\\" then
      match ts with
      | [] => []
      | u :: us => if u.isSymbol "." then us else behindRows us
    else behindRows ts

/-- A copy of rows between a table and a file, behind `COPY`. The rows may follow the statement. -/
def copyRows (g : Grammar) : Reader Statement := do
  let query ← if (← peekSymbol "(") then do pure (some (← parens g.query)) else pure none
  if query.isNone then
    let _ ← objectName
    let _ ← columnList?
  let side ← anyKeyword ["FROM", "TO"]
  if query.isSome && side = "FROM" then fail
  let inline ← keyword? "STDIN"
  if !inline && !(← keyword? "STDOUT") then
    let _ ← keyword? "PROGRAM"
    let _ ← literalString g.dialect
  let _ ← keyword? "WITH"
  if (← peekSymbol "(") then
    let _ ← parens (commaSeparated (copyOption g))
  let _ ← many (attempt (bareCopyOption g.dialect))
  if inline then
    symbol ";"
    setRest (behindRows (← rest))
  return { uses := query.elim [] (·.uses) }

/-- The rows of a query that are written to a file, behind `UNLOAD`. -/
def unload (g : Grammar) : Reader Statement := do
  let query ← parens g.query
  keyword "TO"
  let _ ← ident
  let options ← options? g "WITH"
  return { uses := query.uses ++ options.uses }

/-! ## Caches -/

def cachedQuery (g : Grammar) : Reader (List Use) := do
  match (← peek) with
  | none => return []
  | some (.word _) =>
    let _ ← keyword? "AS"
    return (← g.query).uses
  | _ => fail

/-- The caching of a table behind `CACHE`. -/
def cacheTable (g : Grammar) : Reader Statement := do
  if !(← keyword? "TABLE") then
    let _ ← objectName
    keyword "TABLE"
  let name ← objectName
  let options ← options? g "OPTIONS"
  let query ← cachedQuery g
  return { uses := .relation name :: options.uses ++ query }

def uncacheTable : Reader Statement := do
  keyword "TABLE"
  let _ ← keywords? ["IF", "EXISTS"]
  return { uses := [.relation (← objectName)] }

def flushable : List (List String) :=
  [["BINARY", "LOGS"], ["ENGINE", "LOGS"], ["ERROR", "LOGS"], ["GENERAL", "LOGS"], ["HOSTS"],
    ["PRIVILEGES"], ["OPTIMIZER_COSTS"], ["RELAY", "LOGS"], ["SLOW", "LOGS"], ["STATUS"],
    ["USER_RESOURCES"], ["LOGS"]]

def anyKeywords? : List (List String) → Reader (Option (List String))
  | [] => return none
  | ks :: more => do
    if (← keywords? ks) then return some ks else anyKeywords? more

/-- The tables that are written out, in at most `bound` clauses. They end at the first token that is
no word, which is taken too. -/
def flushedTablesUpTo : Nat → Reader Unit
  | 0 => return
  | bound + 1 => do
    match (← peek) with
    | some (.word w) =>
      if !w.isKeyword then
        let _ ← commaSeparated objectName
      else
        skip 1
        if w.keyword = "WITH" then
          let _ ← keywords? ["READ", "LOCK"]
        else if w.keyword = "FOR" then
          let _ ← keyword? "EXPORT"
      flushedTablesUpTo bound
    | _ => skip 1

/-- The writing out of caches behind `FLUSH`. -/
def flush : Reader Statement := do
  if !(← keyword? "NO_WRITE_TO_BINLOG") then
    let _ ← keyword? "LOCAL"
  match (← anyKeywords? flushable) with
  | some ks =>
    if ks = ["RELAY", "LOGS"] then
      let _ ← afterAll? ["FOR", "CHANNEL"] objectName
  | none =>
    keyword "TABLES"
    flushedTablesUpTo (← bound)
  return {}

end SqlOutline.Sql.Grammar
