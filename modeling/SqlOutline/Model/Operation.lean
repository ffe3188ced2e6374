import SqlOutline.Model.Routine
import SqlOutline.Model.Table

/-!
# Operations

## Main definitions

* `Operation` — what one statement does to a database as far as it is reported.
* `Category` — the lists of a report that operations are put into.
-/

namespace SqlOutline

open Text

/-- A view and the relations it reads. -/
structure View where
  name : QualifiedName
  relations : NameSet
  deriving Repr, DecidableEq

/-- An index on a table. -/
structure Index where
  name : Option String
  table : QualifiedName
  unique : Bool
  columns : List String
  deriving Repr, DecidableEq

/-- The kinds of objects whose removal is reported. -/
inductive DropKind where
  | table
  | view
  | materializedView
  | index
  | procedure
  | function
  | trigger
  deriving Repr, DecidableEq

namespace DropKind

def text : DropKind → String
  | .table => "TABLE"
  | .view => "VIEW"
  | .materializedView => "MATERIALIZED VIEW"
  | .index => "INDEX"
  | .procedure => "PROCEDURE"
  | .function => "FUNCTION"
  | .trigger => "TRIGGER"

def ofKeywords? (t : Text) : Option DropKind :=
  match upperString (join [' '] (words t)) with
  | "TABLE" => some .table
  | "VIEW" => some .view
  | "MATERIALIZED VIEW" => some .materializedView
  | "INDEX" => some .index
  | "PROCEDURE" | "PROC" => some .procedure
  | "FUNCTION" => some .function
  | "TRIGGER" => some .trigger
  | _ => none

end DropKind

/-- The removal of an object. -/
structure Drop where
  kind : DropKind
  name : QualifiedName
  ifExists : Bool
  deriving Repr, DecidableEq

/-- What a statement does. -/
inductive Operation where
  | createTable (table : Table)
  | alterTable (alteration : TableAlteration)
  | createView (orReplace : Bool) (view : View)
  | alterView (view : View)
  | createIndex (index : Index)
  | routine (routine : Routine)
  | createTrigger (trigger : Trigger)
  | drop (drop : Drop)
  deriving Repr, DecidableEq

/-- The lists under which operations are reported. -/
inductive Category where
  | createTable
  | alterTable
  | createView
  | alterView
  | createIndex
  | createProcedure
  | alterProcedure
  | createFunction
  | alterFunction
  | createTrigger
  | drop
  deriving Repr, DecidableEq

namespace Category

def all : List Category :=
  [.createTable, .alterTable, .createView, .alterView, .createIndex, .createProcedure,
    .alterProcedure, .createFunction, .alterFunction, .createTrigger, .drop]

def ofRoutine : RoutineKind → Bool → Category
  | .procedure, false => .createProcedure
  | .procedure, true => .alterProcedure
  | .function, false => .createFunction
  | .function, true => .alterFunction

end Category

namespace Operation

def category : Operation → Category
  | .createTable _ => .createTable
  | .alterTable _ => .alterTable
  | .createView _ _ => .createView
  | .alterView _ => .alterView
  | .createIndex _ => .createIndex
  | .routine r => .ofRoutine r.kind r.alter
  | .createTrigger _ => .createTrigger
  | .drop _ => .drop

def usage? : Operation → Option Usage
  | .routine r => some r.usage
  | .createTrigger t => some t.usage
  | _ => none

def absorb (usage : Usage) : Operation → Operation
  | .routine r => .routine { r with usage := r.usage.merge usage }
  | .createTrigger t => .createTrigger { t with usage := t.usage.merge usage }
  | o => o

def hideColumns : Operation → Operation
  | .createTable t => .createTable { t with columns := [] }
  | .alterTable a => .alterTable { a with addedColumns := [] }
  | o => o

end Operation

end SqlOutline
