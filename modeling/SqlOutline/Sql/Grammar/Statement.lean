import SqlOutline.Sql.Grammar.Overview
import SqlOutline.Sql.Grammar.Upkeep

/-!
# Statements

A statement is recognised by its first keyword.

## Main definitions

* `depthLimit` — how deep expressions, queries and statements may be nested.
* `parse` — the grammar as a whole.
-/

namespace SqlOutline.Sql

namespace Grammar

open Reader

def specialStatement (g : Grammar) (k : String) : Reader Statement := do
  match k, g.dialect with
  | "REPLACE", .mysql | "REPLACE", .plsql => return { uses := (← insert g).uses }
  | "COMMENT", .postgresql | "COMMENT", .plsql => comment g
  | "LISTEN", .postgresql =>
    let _ ← ident
    return {}
  | "UNLISTEN", .postgresql =>
    if !(← symbol? "*") then
      let _ ← ident
    return {}
  | "NOTIFY", .postgresql => notify g
  | "LOAD", .postgresql | "LOAD", .plsql | "INSTALL", .plsql =>
    let _ ← ident
    return {}
  | "DETACH", .plsql => detach
  | "OPTIMIZE", .plsql => optimize g
  | "FLUSH", .mysql | "FLUSH", .plsql => flush
  | "LOCK", .mysql => lockTables
  | "UNLOCK", .mysql =>
    keyword "TABLES"
    return {}
  | _, _ => fail

def keywordStatement (g : Grammar) (k : String) : Reader Statement := do
  match k with
  | "TRUNCATE" => truncate g
  | "CREATE" => create g
  | "DROP" => remove g
  | "ALTER" => alterStatement g
  | "DELETE" => return { uses := (← delete g).uses }
  | "INSERT" => return { uses := (← insert g).uses }
  | "UPDATE" => return { uses := (← update g).uses }
  | "MERGE" => return { uses := (← merge g).uses }
  | "CALL" => callProcedure g
  | "EXECUTE" | "EXEC" => execute g
  | "SET" => setVariable g
  | "DECLARE" => declare g
  | "FETCH" => fetchRow g
  | "CLOSE" | "SAVEPOINT" =>
    let _ ← ident
    return {}
  | "DEALLOCATE" =>
    let _ ← keyword? "PREPARE"
    let _ ← ident
    return {}
  | "RELEASE" =>
    let _ ← keyword? "SAVEPOINT"
    let _ ← ident
    return {}
  | "USE" =>
    let _ ← objectName
    return {}
  | "DISCARD" =>
    let _ ← anyKeyword ["ALL", "PLANS", "SEQUENCES", "TEMP", "TEMPORARY"]
    return {}
  | "BEGIN" => beginTransaction g
  | "START" =>
    keyword "TRANSACTION"
    transactionModes
    return {}
  | "END" | "COMMIT" => endTransaction
  | "ROLLBACK" => rollback
  | "EXPLAIN" | "DESC" | "DESCRIBE" => explain g k
  | "ANALYZE" => analyze g
  | "GRANT" => grant
  | "REVOKE" => revoke
  | "SHOW" => showOverview g
  | "PREPARE" => prepare g
  | "ASSERT" => assertion g
  | "KILL" => kill g
  | "COPY" => copyRows g
  | "UNLOAD" => unload g
  | "ATTACH" => attach g
  | "MSCK" => repair
  | "CACHE" => cacheTable g
  | "UNCACHE" => uncacheTable
  | "PRAGMA" => directive g
  | _ => specialStatement g k

/-- A statement. -/
def statementWith (g : Grammar) : Reader Statement := do
  match (← peek) with
  | some (.word w) =>
    if ["SELECT", "WITH", "VALUES"].contains w.keyword then return { uses := (← g.query).uses }
    else
      skip 1
      keywordStatement g w.keyword
  | some (.symbol s) => if s = "(" then return { uses := (← g.query).uses } else fail
  | _ => fail

/-- The grammar with `n` levels left. -/
def level (d : Dialect) : Nat → Grammar
  | 0 => exhausted d
  | n + 1 =>
    let g := level d n
    { dialect := d
      subexpr := subexprWith g
      query := queryWith g
      column := do return (← columnDef g).phrase
      statement := statementWith g }

def depthLimit : Nat := 50

end Grammar

/-- All statements that tokens spell in a dialect; `none` if the tokens are not statements. -/
def parse (d : Dialect) (tokens : List Token) : Option (List Statement) :=
  let input := tokens.filter (!·.isGap)
  let g := Grammar.level d Grammar.depthLimit
  match g.statements { rest := input } with
  | .ok (statements, _) => some statements
  | .error _ => none

end SqlOutline.Sql
