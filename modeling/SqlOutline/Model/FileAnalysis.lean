import SqlOutline.Model.Operation

/-!
# Analyses of files

## Main definitions

* `FileAnalysis` — the operations of a file, and what it uses outside of any definition.
-/

namespace SqlOutline

/-- The report on a file. -/
structure FileAnalysis where
  path : String
  /-- The operations in the order in which they are found. -/
  operations : List Operation := []
  /-- What standalone statements use. -/
  topLevel : Usage := {}
  deriving Repr, DecidableEq

namespace FileAnalysis

def push (a : FileAnalysis) (operations : List Operation) : FileAnalysis :=
  { a with operations := a.operations ++ operations }

def addTopLevel (a : FileAnalysis) (usage : Usage) : FileAnalysis :=
  { a with topLevel := a.topLevel.merge usage }

/-- The operations of one list of the report. -/
def ofCategory (a : FileAnalysis) (c : Category) : List Operation :=
  a.operations.filter (·.category == c)

def operationCount (a : FileAnalysis) : Nat := a.operations.length

def hideColumns (a : FileAnalysis) : FileAnalysis :=
  { a with operations := a.operations.map Operation.hideColumns }

end FileAnalysis

end SqlOutline
