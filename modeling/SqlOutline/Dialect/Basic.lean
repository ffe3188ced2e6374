import SqlOutline.Text.Lowercase

/-!
# Dialects

## Main definitions

* `Dialect` — the dialects of SQL that scripts are written in.
* `ofName?` — the dialect that a name stands for.
-/

namespace SqlOutline

/-- The dialects that are told apart. -/
inductive Dialect where
  | postgresql
  | mysql
  | tsql
  | plsql
  deriving Repr, DecidableEq

namespace Dialect

def name : Dialect → String
  | .postgresql => "postgresql"
  | .mysql => "mysql"
  | .tsql => "tsql"
  | .plsql => "plsql"

def aliases : Dialect → List String
  | .postgresql => ["postgresql", "postgres", "pg", "plpgsql"]
  | .mysql => ["mysql", "mariadb"]
  | .tsql => ["tsql", "t-sql", "mssql", "sqlserver"]
  | .plsql => ["plsql", "pl/sql", "oracle"]

def ofName? (s : String) : Option Dialect :=
  let lower := String.ofList (Text.lower s.toList)
  [postgresql, mysql, tsql, plsql].find? (·.aliases.contains lower)

def unknownMessage (s : String) : String :=
  "Unknown dialect: '" ++ s ++ "'. Supported dialects: postgresql, mysql, tsql, plsql."

end Dialect

end SqlOutline
