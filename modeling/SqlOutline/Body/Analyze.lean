import SqlOutline.Body.Chunk
import SqlOutline.Reference.Harvest
import SqlOutline.Reference.Tree
import SqlOutline.Sql.Parse

/-!
# What a body uses

A chunk that the grammar accepts gives exactly what its statements use; any other is harvested token
by token, so a statement that is not understood never hides its neighbours.

## Main definitions

* `BodyReader` — how bodies are read.
* `bodyUsage`, `strictUsage` — what a body uses, chunk by chunk or all or nothing.
-/

namespace SqlOutline

open Sql

/-- How bodies are read: the grammar, the rules for chunks that it does not accept, and whether
`EXECUTE` runs a text as SQL. -/
structure BodyReader where
  grammar : Dialect
  rules : Harvest.Rules
  dynamicExecute : Bool
  deriving Repr, DecidableEq

namespace BodyReader

def start (r : BodyReader) : Collector :=
  if r.dynamicExecute then Collector.dynamicExecute {} else {}

def addChunk (r : BodyReader) (c : Collector) (chunk : List Token) : Collector :=
  let (before, statement) := Body.parts chunk
  let statement := Body.asQuery statement
  let c := harvest r.rules c before
  match parse r.grammar statement with
  | some statements => c.addStatements statements
  | none => harvest r.rules c statement

def ofTokens (r : BodyReader) (ts : List Token) : Usage :=
  ((Body.chunks ts).foldl r.addChunk r.start).finish

/-- What a body uses; `none` if it cannot be cut into tokens. -/
def read? (r : BodyReader) (body : Text) : Option Usage := (tokens? r.grammar body).map r.ofTokens

/-- How bodies of a dialect are read. In one dialect a name at the start of a statement is a call,
and in one `EXECUTE` runs a text as SQL. -/
def ofDialect : Dialect → BodyReader
  | .tsql => ⟨.tsql, ⟨false⟩, false⟩
  | .plsql => ⟨.plsql, ⟨true⟩, false⟩
  | .mysql => ⟨.mysql, ⟨false⟩, false⟩
  | .postgresql => ⟨.postgresql, ⟨false⟩, true⟩

end BodyReader

/-- What a body in a given dialect uses. A body that cannot be cut into tokens uses nothing. -/
def bodyUsage (d : Dialect) (body : Text) : Usage := ((BodyReader.ofDialect d).read? body).getD {}

/-- What a body uses whose statements are all understood in the dialect with the widest grammar. -/
def strictUsage (body : Text) : Except ParseError Usage := do
  let statements ← parseText .postgresql body
  return ((Collector.dynamicExecute {}).addStatements statements).finish

end SqlOutline
