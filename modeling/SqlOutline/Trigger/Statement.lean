import SqlOutline.Body.Analyze
import SqlOutline.Lexeme.Group
import SqlOutline.Model.Routine

/-!
# Triggers read from statements

T-SQL names the table of a trigger before the timing and the events, PL/SQL behind them.

## Main definitions

* `readTrigger?` — a trigger from the lexemes of its statement.
-/

namespace SqlOutline

open Text

namespace TriggerStatement

/-! ## Parts -/

def timingAtFront? : List Lexeme → Option (Timing × List Lexeme)
  | [] => none
  | l :: ls =>
    if l.isWord "INSTEAD" then
      some (.insteadOf, if ls.head?.any (·.isWord "OF") then ls.drop 1 else ls)
    else (Timing.ofKeywords? l.text).map (·, ls)

/-- Whether a word is an event: a change of rows, the start of a session, or any of the events that
are spelled with underscores. -/
def isEvent (word : String) : Bool :=
  ["INSERT", "UPDATE", "DELETE", "LOGON"].contains word || word.toList.contains '_'

def eventsAmong (ls : List Lexeme) : List String :=
  (((ls.filter (·.isName)).map (·.upper)).filter isEvent).eraseDups

def outsideColumns (inColumns : Bool) : List Lexeme → List Lexeme
  | [] => []
  | l :: ls =>
    if l.isWord "OF" then outsideColumns true ls
    else if l.isWord "OR" then outsideColumns false ls
    else if inColumns then outsideColumns true ls
    else l :: outsideColumns false ls

def textFrom (source : Text) (l : Lexeme) : Text := dropBytes l.start source

/-! ## Shapes -/

/-- The table of a T-SQL trigger, which can also be a whole database or server, and the lexemes
behind it. -/
def tsqlTarget? (source : Text) (ls : List Lexeme) : Option (QualifiedName × List Lexeme) :=
  if startsWithWords ["DATABASE"] ls then some (⟨none, "DATABASE"⟩, ls.drop 1)
  else if startsWithWords ["ALL", "SERVER"] ls then some (⟨none, "ALL SERVER"⟩, ls.drop 2)
  else readName? source ls

def tsqlTrigger? (source : Text) (name : String) (ls : List Lexeme) : Option Trigger := do
  let (table, behindTable) ← tsqlTarget? source ls
  let (timing, behindTiming) ←
    timingAtFront? (behindTable.dropWhile (!·.isAnyWord ["FOR", "AFTER", "INSTEAD"]))
  let events := eventsAmong (behindTiming.takeWhile (!·.isAnyWord ["AS", "WITH", "NOT"]))
  let body := (behindTiming.dropWhile (!·.isWord "AS")).drop 1
  let usage := (body.head?.map fun l => bodyUsage .tsql (textFrom source l)).getD {}
  return { name, table, timing, events, usage }

/-- The table of a PL/SQL trigger, which can also be a schema or a database, and the lexemes behind
it. -/
def plsqlTarget? (source : Text) (ls : List Lexeme) : Option (QualifiedName × List Lexeme) :=
  match ls with
  | l :: rest =>
    if l.isAnyWord ["SCHEMA", "DATABASE"] then some (⟨none, l.upper⟩, rest)
    else readName? source ls
  | [] => none

def plsqlTrigger? (source : Text) (name : String) (ls : List Lexeme) : Option Trigger := do
  let (timing, behindTiming) ← timingAtFront? ls
  let isOn (l : Lexeme) : Bool := l.isWord "ON"
  let events := eventsAmong (outsideColumns false (behindTiming.takeWhile (!isOn ·)))
  let (table, rest) ← plsqlTarget? source ((behindTiming.dropWhile (!isOn ·)).drop 1)
  let body := rest.find? (·.isAnyWord ["DECLARE", "BEGIN"])
  let usage := (body.map fun l => bodyUsage .plsql (textFrom source l)).getD {}
  return { name, table, timing, events, usage }

end TriggerStatement

open TriggerStatement in
/-- The trigger that a T-SQL or PL/SQL statement creates. -/
def readTrigger? (source : Text) : Option Trigger := do
  let lexemes := tokenize source
  let first ← lexemes.head?
  if !first.isWord "CREATE" then none
  let header := (lexemes.take 6).takeWhile (!·.isWord "TRIGGER")
  let (name, rest) ← readName? source (← behindWord? "TRIGGER" 6 lexemes)
  let next ← rest.head?
  let trigger ←
    if next.isWord "ON" then tsqlTrigger? source name.name (rest.drop 1)
    else if next.isAnyWord ["BEFORE", "AFTER", "INSTEAD", "FOR"] then
      plsqlTrigger? source name.name rest
    else none
  return { trigger with orReplace := header.any (·.isAnyWord ["REPLACE", "ALTER"]) }

end SqlOutline
