import SqlOutline.Diagnostic
import SqlOutline.Model.FileAnalysis
import SqlOutline.Routine.Extract
import SqlOutline.Statement.Split
import SqlOutline.Trigger.Scan
import SqlOutline.Trigger.Statement

/-!
# Analysis of a script

Each statement has findings: its operations, what it uses, and what could not be read. The triggers
that are found by their headers come last.

## Main definitions

* `statementFindings`, `scriptFindings` — the findings of a statement and of a script.
* `analyzeFile?` — the report on a file.
-/

namespace SqlOutline

open Text

/-! ## One statement -/

/-- Something that could not be read. -/
structure Problem where
  kind : DiagnosticKind
  message : String
  deriving Repr, DecidableEq

/-- What is found in one statement. -/
structure Findings where
  operations : List Operation := []
  /-- What the statement uses, if it is none that defines something. -/
  topLevel : Usage := {}
  problem : Option Problem := none
  deriving Repr, DecidableEq

namespace Findings

def ofProblem (kind : DiagnosticKind) (message : String) : Findings :=
  { problem := some ⟨kind, message⟩ }

def ofDefinition (t : Text) (file : Option Dialect) : Findings :=
  match Sql.parseAny t file with
  | .ok statements => { operations := statements.flatMap fun s => convertStatement s t }
  | .error e =>
    match readDefinition? t file with
    | some operations => { operations }
    | none => ofProblem .statementParseError ("statement skipped: " ++ e.message)

def ofRoutine (t : Text) (file : Option Dialect) : Findings :=
  match extractRoutine t file with
  | .extracted r => { operations := [.routine r] }
  | .headerOnly r reason =>
    { operations := [.routine r], problem := some ⟨.routineBodyParseFailure, reason⟩ }
  | .unsupported reason => ofProblem .unsupportedConstruct reason
  | .notARoutine => ofProblem .statementParseError "routine header could not be read"

def ofPackage (t : Text) : Findings :=
  match extractPackage? t with
  | some routines => { operations := routines.map .routine }
  | none => ofProblem .unsupportedConstruct "package body could not be read"

def ofTrigger (t : Text) (covered : Bool) : Findings :=
  if covered then {}
  else
    match readTrigger? t with
    | some trigger => { operations := [.createTrigger trigger] }
    | none => ofProblem .triggerPatternMiss "trigger matches no known shape"

/-- What a statement uses that is read like a body: in its own dialect, that of the file, or the one
in which a bare name is a call. -/
def quietUsage (t : Text) (file : Option Dialect) : Usage :=
  bodyUsage (((detectDialect t).or file).getD .plsql) t

def ofStandalone (t : Text) (file : Option Dialect) : Findings :=
  match Sql.parseAny t file with
  | .ok statements => { topLevel := (Collector.addStatements {} statements).finish }
  | .error _ => { topLevel := quietUsage t file }

end Findings

open Findings in
/-- What is found in a statement. `covered` says whether it has a trigger that is found by its
header. -/
def statementFindings (t : Text) (file : Option Dialect) (covered : Bool) : Findings :=
  match classify (tokenize t) with
  | .createTable | .alterTable | .createView | .alterView | .createIndex | .drop =>
    ofDefinition t file
  | .routine _ _ => ofRoutine t file
  | .packageBody => ofPackage t
  | .packageSpec => ofProblem .unsupportedConstruct "package specifications are not extracted"
  | .unsupported => ofProblem .unsupportedConstruct "statement is recognized but not extracted"
  | .trigger => ofTrigger t covered
  | .dml => ofStandalone t file
  | .anonymousBlock => { topLevel := quietUsage t file }
  | .other => {}

/-! ## Scripts -/

/-- What is found in each statement of a script. -/
def scriptFindings (source : Text) (file : Option Dialect) (scan : TriggerScan) :
    List (Statement × Findings) :=
  (splitStatements source).map fun s =>
    (s, statementFindings s.text file (scan.covers s.offset (s.offset + byteLength s.text)))

def FileAnalysis.addFindings (a : FileAnalysis) (f : Findings) : FileAnalysis :=
  (a.push f.operations).addTopLevel f.topLevel

/-- A report with the findings of a script. -/
def FileAnalysis.addScript (a : FileAnalysis) (source : Text) (file : Option Dialect)
    (scan : TriggerScan) : FileAnalysis :=
  ((scriptFindings source file scan).map (·.2)).foldl addFindings a

def FileAnalysis.addTriggers (a : FileAnalysis) (triggers : List Trigger) : FileAnalysis :=
  a.push (triggers.map .createTrigger)

def diagnosticAt (source : Text) (s : Statement) (p : Problem) : Diagnostic where
  kind := p.kind
  message := p.message
  span := some (Span.locate source s.offset (byteLength s.text))

/-- What could not be read in a script. -/
def scriptDiagnostics (source : Text) (file : Option Dialect) (scan : TriggerScan) :
    List Diagnostic :=
  (scriptFindings source file scan).filterMap fun (s, f) => f.problem.map (diagnosticAt source s)

/-- The report on a file, with what could not be read in it. `none` if the headers of its triggers
overlap. -/
def analyzeFile? (path : String) (source : Text) (hideColumns : Bool) :
    Option (FileAnalysis × List Diagnostic) := do
  let file := detectDialect source
  let scan ← scanTriggers? source
  let empty : FileAnalysis := { path }
  let analysis := (empty.addScript source file scan).addTriggers scan.triggers
  return (if hideColumns then analysis.hideColumns else analysis,
    scriptDiagnostics source file scan)

end SqlOutline
