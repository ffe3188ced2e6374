import SqlOutline.Reference.Collector
import SqlOutline.Sql.Tree

/-!
# References of parsed statements

## Main definitions

* `addStatements` — a collector with what statements use, in the order in which it is met.
-/

namespace SqlOutline

open Text Sql

def Sql.Ident.plain? (i : Ident) : Option String :=
  match trim i.value.toList with
  | [] => none
  | c :: t => some (String.ofList (c :: t))

def Sql.ObjectName.parts (n : ObjectName) : List String := n.filterMap Ident.plain?

def Sql.ObjectName.chain? (n : ObjectName) : Option String :=
  match ObjectName.parts n with
  | [] => none
  | p :: ps => some (".".intercalate (p :: ps))

namespace Collector

def withChain (c : Collector) (n : ObjectName) (add : Collector → Text → Collector) : Collector :=
  match ObjectName.chain? n with
  | some name => add c name.toList
  | none => c

/-- Records something that a statement uses. A statement that executes `IMMEDIATE` runs a text as
SQL. -/
def addUse (c : Collector) : Use → Collector
  | .relation n => c.withChain n addRelation
  | .function n => c.withChain n addFunction
  | .tableFunction n => c.withChain n addTableFunction
  | .cte name => c.addCte name.toList
  | .call n => c.withChain n addProcedure
  | .execute n =>
    let name := (ObjectName.text n).toList
    if !c.executeIsCall || eqIgnoreCase name "IMMEDIATE".toList then c else c.addProcedure name

/-- Records what a statement uses. -/
def addUses (c : Collector) (uses : List Use) : Collector := uses.foldl addUse c

def addStatements (c : Collector) (statements : List Sql.Statement) : Collector :=
  statements.foldl (fun c s => c.addUses s.uses) c

end Collector

end SqlOutline
