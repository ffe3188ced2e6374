import SqlOutline.Lexeme.Basic

/-!
# Kinds of statements

## Main definitions

* `StatementKind`, `classify` — what a statement is, judged from its leading words.
-/

namespace SqlOutline

/-- Procedures and functions. -/
inductive RoutineKind where
  | procedure
  | function
  deriving Repr, DecidableEq

/-- What a statement is. -/
inductive StatementKind where
  | createTable
  | alterTable
  | createView
  | alterView
  | createIndex
  | drop
  | routine (kind : RoutineKind) (alter : Bool)
  /-- A statement that is recognised and skipped, such as `ALTER TRIGGER`. -/
  | unsupported
  | trigger
  | packageBody
  | packageSpec
  | anonymousBlock
  /-- A query, a change of data, or a call. -/
  | dml
  | other
  deriving Repr, DecidableEq

namespace StatementKind

def dmlWords : List String :=
  ["SELECT", "INSERT", "UPDATE", "DELETE", "MERGE", "WITH", "CALL", "EXEC", "EXECUTE", "VALUES"]

def otherWords : List String :=
  ["SET", "USE", "GRANT", "REVOKE", "COMMENT", "COMMIT", "ROLLBACK", "SAVEPOINT", "PRINT",
    "RAISERROR", "ANALYZE", "VACUUM", "SHOW", "DESCRIBE", "DESC", "EXPLAIN", "LOCK", "START",
    "PROMPT", "SPOOL", "WHENEVER", "CONNECT", "TRUNCATE", "RENAME", "REINDEX", "CLUSTER",
    "COPY", "LISTEN", "NOTIFY", "DISCARD", "RESET", "CHECKPOINT", "DO", "PREPARE", "DEALLOCATE",
    "FLUSH", "OPTIMIZE", "REPAIR", "LOAD", "SOURCE", "DBCC", "BACKUP", "RESTORE", "NULL",
    "END", "RETURN", "EXIT", "PRAGMA"]

def objectWords : List String :=
  ["TABLE", "VIEW", "INDEX", "PROCEDURE", "PROC", "FUNCTION", "TRIGGER", "PACKAGE",
    "MATERIALIZED", "TYPE", "SEQUENCE", "SCHEMA", "DATABASE", "EVENT", "EXTENSION", "ROLE",
    "USER", "DOMAIN", "SYNONYM", "TABLESPACE", "POLICY", "RULE"]

def objectWindow : Nat := 16

def findObject? : Nat → List Lexeme → Option (String × Option Lexeme)
  | 0, _ => none
  | _, [] => none
  | window + 1, l :: ls =>
    if l.isAnyWord objectWords then some (l.upper, ls.head?) else findObject? window ls

def ofCreated : String × Option Lexeme → StatementKind
  | ("TABLE", _) => .createTable
  | ("VIEW", _) => .createView
  | ("MATERIALIZED", _) => .createView
  | ("INDEX", _) => .createIndex
  | ("PROCEDURE", _) => .routine .procedure false
  | ("PROC", _) => .routine .procedure false
  | ("FUNCTION", _) => .routine .function false
  | ("TRIGGER", _) => .trigger
  | ("PACKAGE", next) => if next.any (·.isWord "BODY") then .packageBody else .packageSpec
  | _ => .other

def ofAltered : String → StatementKind
  | "TABLE" => .alterTable
  | "VIEW" => .alterView
  | "PROCEDURE" => .routine .procedure true
  | "PROC" => .routine .procedure true
  | "FUNCTION" => .routine .function true
  | "TRIGGER" => .unsupported
  | "PACKAGE" => .unsupported
  | "INDEX" => .unsupported
  | "MATERIALIZED" => .unsupported
  | _ => .other

end StatementKind

open StatementKind in
/-- The kind of a statement with given lexemes. -/
def classify : List Lexeme → StatementKind
  | [] => .other
  | first :: rest =>
    if first.isWord "CREATE" then ((findObject? objectWindow rest).map ofCreated).getD .other
    else if first.isWord "ALTER" then
      ((findObject? objectWindow rest).map (ofAltered ·.1)).getD .other
    else if first.isWord "DROP" then .drop
    else if first.isWord "BEGIN" then
      if rest.head?.all (·.isAnyWord ["TRAN", "TRANSACTION", "WORK", "ISOLATION", "DISTRIBUTED"])
      then .other else .anonymousBlock
    else if first.isWord "DECLARE" then .anonymousBlock
    else if first.isAnyWord dmlWords || first.isSymbol '(' then .dml
    else if first.isName && !first.isAnyWord otherWords
        && rest.head?.all (fun n => n.isSymbol '.' || n.isSymbol '(' || n.isSymbol '@') then .dml
    else .other

end SqlOutline
