import SqlOutline.Dialect.Basic
import SqlOutline.Pattern.Basic

/-!
# Telling a dialect from its markers

When there are markers of several dialects, T-SQL comes first, then PL/SQL, then MySQL, then
PostgreSQL.

## Main definitions

* `contentLines` — the lines of a text that are neither blank nor comments.
* `detectDialect` — the dialect whose markers a text has.
-/

namespace SqlOutline

open Text

namespace Detect

def isHashComment : Text → Bool
  | '#' :: t => t.head?.all fun c => isBlank c || c == '#'
  | _ => false

/-- The trimmed lines that are neither blank nor comments; `inBlock` says whether a block comment
is open before them. -/
def contentLinesFrom (inBlock : Bool) : List Text → List Text
  | [] => []
  | raw :: rest =>
    let line := trim raw
    if inBlock then contentLinesFrom (!containsSub ['*', '/'] line) rest
    else if line.isEmpty || ['-', '-'].isPrefixOf line || isHashComment line then
      contentLinesFrom false rest
    else if ['/', '*'].isPrefixOf line then
      contentLinesFrom (!containsSub ['*', '/'] (line.drop 2)) rest
    else line :: contentLinesFrom false rest

/-- The trimmed lines of a text that are neither blank nor comments. -/
def contentLines (t : Text) : List Text := contentLinesFrom false (lines t)

open Pattern

def goLine : Pattern :=
  all [.atStart, lit "go", opt (.seq blanks (some1 (.one isDecimalDigit))), .atEnd]

def execWord : Pattern := all [.boundary, lit "exec", opt (lit "ute"), .boundary]

def otherExec : Pattern :=
  all [.atStart, blanks0,
    anyOf [lit "immediate", lit "function", lit "procedure",
      all [lit "format", blanks0, char '(']]]

def wholeWord (w : String) : Pattern := all [.boundary, lit w, .boundary]

def hasBlock (t : Text) : Bool :=
  match (wholeWord "begin").find? t with
  | some m => ((wholeWord "end").findFrom? m.stop.before m.stop.offset m.stop.rest).isSome
  | none => false

def mysqlMarker : Pattern :=
  anyOf [all [.atStart, lit "delimiter", blanks, some1 (.one (!isBlank ·))],
    all [.boundary, lit "engine", blanks0, char '='],
    all [.boundary, lit "end", blanks0, char '$', char '$'],
    wholeWord "auto_increment",
    char '`']

def isTagLetter (c : Char) : Bool :=
  isAsciiAlpha c || c == '_' || c.toNat == 0x17F || c.toNat == 0x212A

def postgresMarker : Pattern :=
  anyOf [all [.boundary, lit "language", blanks, opt (char '\''), lit "plpgsql", .boundary],
    all [char '$', .many true (.one isTagLetter), char '$']]

def isTsqlLine (line : Text) : Bool :=
  containsSub "create or alter".toList (lower line) || goLine.isIn line
    || (execWord.findAll line).any fun m =>
      let rest := m.stop.rest
      !(trim rest).isEmpty && !otherExec.isIn rest

def isReplacedBlock (t : Text) : Bool :=
  let low := lower t
  containsSub "create or replace".toList low && hasBlock low && endsWith ['/'] (trimEnd low)

end Detect

open Detect in
/-- The dialect of a text, if it has a marker of one. -/
def detectDialect (t : Text) : Option Dialect :=
  let ls := contentLines t
  if ls.any isTsqlLine then some .tsql
  else if ls.any (· == ['/']) || isReplacedBlock (join ['\n'] ls) then some .plsql
  else if ls.any mysqlMarker.isIn then some .mysql
  else if ls.any postgresMarker.isIn then some .postgresql
  else none

end SqlOutline
