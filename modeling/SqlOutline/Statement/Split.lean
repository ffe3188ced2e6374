import SqlOutline.Lexeme.Scan
import SqlOutline.Statement.Block

/-!
# Statements of a script

A semicolon ends a statement only outside blocks and parentheses and only where no body is still to
come; the delimiter in force and directives always end it. A routine waits for its body behind `AS`
or `IS` until a block has been closed. A package body counts as a block from there on.

## Main definitions

* `Splitter`, `Splitter.observe` — what is known about a statement, and what a lexeme changes.
* `splitStatements` — the statements of a script.
-/

namespace SqlOutline

/-- A statement of a script, without the mark that ends it. -/
structure Statement where
  /-- The byte offset of the statement in the script. -/
  offset : Nat
  text : Text
  deriving Repr, DecidableEq

/-- What is known about the statement being read. -/
structure Splitter where
  /-- The offsets of the first lexeme and behind the last. -/
  extent : Option (Nat × Nat) := none
  /-- The number of lexemes read. -/
  count : Nat := 0
  /-- The number of open blocks. -/
  depth : Nat := 0
  /-- The number of open parentheses. -/
  parens : Nat := 0
  /-- The body of a routine is still to come. -/
  awaitingBody : Bool := false
  /-- The statement defines a routine, trigger or package. -/
  routine : Bool := false
  /-- The statement defines a package or the body of a type. -/
  package : Bool := false
  /-- The `AS` or `IS` of the package has been read. -/
  packageOpened : Bool := false
  /-- The words that tell what the statement defines have been read. -/
  headerDone : Bool := false
  deriving Repr, DecidableEq

namespace Splitter

def headerWindow : Nat := 10

def routineWords : List String := ["PROCEDURE", "PROC", "FUNCTION", "TRIGGER"]

def plainObjectWords : List String :=
  ["TABLE", "VIEW", "INDEX", "SEQUENCE", "SCHEMA", "DATABASE"]

def canSplit (s : Splitter) : Bool := s.depth == 0 && s.parens == 0 && !s.awaitingBody

def observeHeader (s : Splitter) (index : Nat) (l : Lexeme) (after : Option Lexeme) : Splitter :=
  if index = 0 then
    if l.isAnyWord ["CREATE", "ALTER"] then s else { s with headerDone := true }
  else if l.isSymbol '(' || l.isAnyWord plainObjectWords then { s with headerDone := true }
  else if l.isAnyWord routineWords then { s with routine := true, headerDone := true }
  else if l.isWord "PACKAGE" || (l.isWord "TYPE" && after.any (·.isWord "BODY")) then
    { s with routine := true, package := true, headerDone := true }
  else s

def observeParen (s : Splitter) (l : Lexeme) : Splitter :=
  if l.isSymbol '(' then { s with parens := s.parens + 1 }
  else if l.isSymbol ')' then { s with parens := s.parens - 1 }
  else s

/-- Takes note of the end or start of a block. The end of the outermost block ends the wait for a
body. -/
def observeBlock (s : Splitter) : BlockMark → Splitter
  | .opens => { s with depth := s.depth + 1 }
  | .closes =>
    if s.depth = 0 then s
    else { s with depth := s.depth - 1, awaitingBody := s.awaitingBody && s.depth != 1 }
  | .none => s

def observeBodyWord (s : Splitter) (before : Option Lexeme) (l : Lexeme) (after : Option Lexeme) :
    Splitter :=
  if s.routine && s.parens == 0 && l.isAnyWord ["IS", "AS"]
      && !before.any (·.isWord "EXECUTE") && after.any (·.kind == .word) then
    if s.package && !s.packageOpened then { s with packageOpened := true, depth := s.depth + 1 }
    else if s.depth = 0 then { s with awaitingBody := true }
    else s
  else s

def observeDeclare (s : Splitter) (index : Nat) (l : Lexeme) (after : Option Lexeme) : Splitter :=
  if l.isWord "DECLARE" && s.depth == 0 && (index == 0 || s.routine)
      && after.any (fun n => n.kind == .word && !n.startsWith '@') then
    { s with awaitingBody := true }
  else s

def observe (s : Splitter) (before : Option Lexeme) (l : Lexeme) (after : Option Lexeme) :
    Splitter :=
  let index := s.count
  let extent := (s.extent.map (·.1)).getD l.start
  let s := { s with extent := some (extent, l.stop), count := s.count + 1 }
  let s := if index < headerWindow && !s.headerDone then s.observeHeader index l after else s
  let s := s.observeParen l
  let s := s.observeBlock (blockMark before l after)
  let s := s.observeBodyWord before l after
  s.observeDeclare index l after

def flush (s : Splitter) (source : Text) : List Statement :=
  match s.extent with
  | some (start, stop) => [⟨start, Text.slice start stop source⟩]
  | none => []

end Splitter

def directiveDelimiter? (text : Text) : Option Text :=
  match Text.words text with
  | first :: mark :: _ => if Text.eqIgnoreCase first "DELIMITER".toList then some mark else none
  | _ => none

/-- The statements from a lexeme on, given what has been read of the current statement, whether a
delimiter other than the semicolon is in force, and the lexeme before. -/
def splitFrom (source : Text) (s : Splitter) (custom : Bool) (before : Option Lexeme) :
    List Lexeme → List Statement
  | [] => s.flush source
  | l :: ls =>
    match l.kind with
    | .directive =>
      let custom := ((directiveDelimiter? l.text).map (· != [';'])).getD custom
      s.flush source ++ splitFrom source {} custom (some l) ls
    | .delimiter => s.flush source ++ splitFrom source {} custom (some l) ls
    | _ =>
      if l.isSymbol ';' && !custom && s.canSplit then
        s.flush source ++ splitFrom source {} custom (some l) ls
      else splitFrom source (s.observe before l ls.head?) custom (some l) ls

/-- The statements of a script, in order. -/
def splitStatements (source : Text) : List Statement :=
  splitFrom source {} false none (scanScript source)

end SqlOutline
