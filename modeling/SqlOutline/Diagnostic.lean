import SqlOutline.Text.Basic

/-!
# Diagnostics

A diagnostic never stops an analysis.

## Main definitions

* `Diagnostic` — what was skipped in a script, or read only in part, and where.
* `locate` — the line and column of a place.
-/

namespace SqlOutline

/-- A stretch of a source. Lines and columns count from one, columns in characters. -/
structure Span where
  /-- The byte offset of the stretch. -/
  offset : Nat
  /-- Its length in bytes. -/
  length : Nat
  line : Nat
  column : Nat
  deriving Repr, DecidableEq

namespace Span

def advance (line column : Nat) : Text → Nat × Nat
  | [] => (line, column)
  | c :: t => if c = '\n' then advance (line + 1) 1 t else advance line (column + 1) t

/-- The span of `length` bytes at an offset, which counts as the end of the source if it lies
behind it. An offset inside a character has the line and column of the end of the source. -/
def locate (source : Text) (offset length : Nat) : Span :=
  let offset := min offset (Text.byteLength source)
  let before := if Text.isBoundary offset source then Text.takeBytes offset source else source
  let (line, column) := advance 1 1 before
  { offset, length, line, column }

end Span

/-- The reasons for a diagnostic. -/
inductive DiagnosticKind where
  /-- No grammar accepts a statement, and it was skipped. -/
  | statementParseError
  /-- The body of a routine could not be analysed. -/
  | routineBodyParseFailure
  /-- A statement is recognised and not analysed. -/
  | unsupportedConstruct
  /-- A trigger has no known shape. -/
  | triggerPatternMiss
  deriving Repr, DecidableEq

namespace DiagnosticKind

def code : DiagnosticKind → String
  | .statementParseError => "S0001"
  | .routineBodyParseFailure => "S0002"
  | .unsupportedConstruct => "S0003"
  | .triggerPatternMiss => "S0004"

def name : DiagnosticKind → String
  | .statementParseError => "statement-parse-error"
  | .routineBodyParseFailure => "routine-body-parse-failure"
  | .unsupportedConstruct => "unsupported-construct"
  | .triggerPatternMiss => "trigger-pattern-miss"

def label (k : DiagnosticKind) : String := k.code ++ "(" ++ k.name ++ ")"

end DiagnosticKind

/-- A warning about a stretch of a source. -/
structure Diagnostic where
  kind : DiagnosticKind
  message : String
  span : Option Span := none
  help : Option String := none
  deriving Repr, DecidableEq

end SqlOutline
