import SqlOutline.Name
import SqlOutline.Text.Lowercase
import SqlOutline.Usage

/-!
# Collecting references

A common table expression, or a function in place of a table, may be met before or after the
expression that defines it.

## Main definitions

* `Collector` — the names that a piece of SQL mentions.
* `finish` — these names without the ones to be left out.
-/

namespace SqlOutline

open Text

/-- The names met so far. -/
structure Collector where
  relations : NameSet := {}
  functions : NameSet := {}
  procedures : NameSet := {}
  /-- Names of common table expressions, in lower case. -/
  ctes : List String := []
  /-- Functions that stand in place of a table, in lower case. -/
  tableFunctions : List String := []
  /-- Whether `EXECUTE` calls a procedure rather than running a text as SQL. -/
  executeIsCall : Bool := true
  deriving Repr, DecidableEq

namespace Collector

def dynamicExecute (c : Collector) : Collector := { c with executeIsCall := false }

def insertChain (s : NameSet) (chain : Text) : NameSet :=
  match Name.normalizeCallee? chain with
  | some name => s.insert (String.ofList name)
  | none => s

/-- Records a relation. Variables, which start with `@` or a colon, are no relations. -/
def addRelation (c : Collector) (chain : Text) : Collector :=
  let name := trim chain
  if name.head? == some '@' || name.head? == some ':' then c
  else { c with relations := insertChain c.relations name }

/-- Records a call in an expression. -/
def addFunction (c : Collector) (chain : Text) : Collector :=
  { c with functions := insertChain c.functions chain }

/-- Records a call of a procedure. A variable is no procedure. -/
def addProcedure (c : Collector) (chain : Text) : Collector :=
  if (trim chain).head? == some '@' then c
  else { c with procedures := insertChain c.procedures chain }

def fold (s : String) : String := String.ofList (lower s.toList)

/-- Records the name of a common table expression. -/
def addCte (c : Collector) (name : Text) : Collector :=
  match Name.stripQuotes? name with
  | some n => { c with ctes := fold (String.ofList n) :: c.ctes }
  | none => c

/-- Records a function that stands in place of a table. -/
def addTableFunction (c : Collector) (name : Text) : Collector :=
  addFunction { c with tableFunctions := fold (String.ofList name) :: c.tableFunctions } name

/-- The usage that was met: relations that name a common table expression or a function in place of
a table, in any letter case, are left out. -/
def finish (c : Collector) : Usage where
  relations := c.relations.filter fun r =>
    !c.ctes.contains (fold r) && !c.tableFunctions.contains (fold r)
  functions := c.functions
  procedures := c.procedures

end Collector

end SqlOutline
