import SqlOutline.Body.Analyze
import SqlOutline.Model.Routine
import SqlOutline.Pattern.Basic

/-!
# Triggers found by their headers

A trigger of PostgreSQL calls a function. A trigger of MySQL has a body, which is looked for before
the next header of any trigger.

## Main definitions

* `postgresHeader`, `mysqlHeader` — the shapes of headers.
* `scanTriggers?` — the triggers of a text, wherever their headers stand.
-/

namespace SqlOutline

open Text Pattern

namespace TriggerScan

/-! ## Shapes of headers -/

def ident : Pattern :=
  anyOf [all [char '"', some1 (except '"'), char '"'],
    all [char '`', some1 (except '`'), char '`'],
    all [char '[', some1 (except ']'), char ']'],
    some1 (.one fun c => isWordChar c || c == '$' || c == '#')]

def qualified : Pattern := .seq ident (.many true (all [blanks0, char '.', blanks0, ident]))

def inStatement : Pattern := except ';'

def postgresEvent : Pattern :=
  anyOf [lit "INSERT",
    all [lit "UPDATE",
      opt (all [blanks, lit "OF", blanks, inStatement, .many false inStatement])],
    lit "DELETE", lit "TRUNCATE"]

/-- The header of a PostgreSQL trigger up to the words before the called function. Group 1 is there
if the trigger replaces another, group 2 is its name, group 3 its timing, group 4 its events and
group 5 its table. -/
def postgresHeader : Pattern :=
  all [.boundary, lit "CREATE", blanks, opt (.group 1 (all [phrase ["OR", "REPLACE"], blanks])),
    opt (all [lit "CONSTRAINT", blanks]), lit "TRIGGER", blanks, .group 2 qualified, blanks,
    .group 3 (anyOf [lit "BEFORE", lit "AFTER", phrase ["INSTEAD", "OF"]]), blanks,
    .group 4 (.seq postgresEvent (.many true (all [blanks, lit "OR", blanks, postgresEvent]))),
    blanks, lit "ON", blanks, .group 5 qualified, .many false inStatement, .boundary,
    lit "EXECUTE", blanks, anyOf [lit "FUNCTION", lit "PROCEDURE"], .boundary]

def definer : Pattern :=
  all [lit "DEFINER", blanks0, char '=', blanks0, some1 (.one (!isBlank ·)), blanks]

/-- The header of a MySQL trigger. Group 1 is its name, group 2 its timing, group 3 its event and
group 4 its table. -/
def mysqlHeader : Pattern :=
  all [.boundary, lit "CREATE", blanks, opt definer, lit "TRIGGER", blanks,
    opt (all [phrase ["IF", "NOT", "EXISTS"], blanks]), .group 1 qualified, blanks,
    .group 2 (anyOf [lit "BEFORE", lit "AFTER"]), blanks,
    .group 3 (anyOf [lit "INSERT", lit "UPDATE", lit "DELETE"]), blanks, lit "ON", blanks,
    .group 4 qualified]

/-- The start of the header of any trigger. -/
def anyHeader : Pattern :=
  all [.boundary, lit "CREATE", blanks,
    opt (all [lit "OR", blanks, anyOf [lit "REPLACE", lit "ALTER"], blanks]), opt definer,
    opt (all [lit "CONSTRAINT", blanks]), lit "TRIGGER", .boundary]

def headerTrigger? (m : Found) (name timing table : Nat) : Option Trigger := do
  let name ← QualifiedName.ofChain? (← m.text? name)
  let table ← QualifiedName.ofChain? (← m.text? table)
  let timing ← Timing.ofKeywords? (← m.text? timing)
  return { name := name.name, table, timing }

/-! ## PostgreSQL -/

def updatedColumns : Pattern :=
  all [.boundary, lit "OF", blanks, inStatement, .many false inStatement,
    anyOf [all [blanks, lit "OR", blanks], .atEnd]]

def eventWord : Pattern :=
  all [.boundary, anyOf [lit "INSERT", lit "UPDATE", lit "DELETE", lit "TRUNCATE"], .boundary]

/-- The events in the header of a PostgreSQL trigger, each once. Names of columns are none. -/
def postgresEvents (t : Text) : List String :=
  let withoutColumns := updatedColumns.replaceAll " OR ".toList t
  ((eventWord.findAll withoutColumns).map fun m => upperString m.whole.text).eraseDups

/-- The call of the function of a PostgreSQL trigger. Group 1 says what is called, group 2 is its
name. -/
def triggerCall : Pattern :=
  all [.boundary, lit "EXECUTE", blanks, .group 1 (anyOf [lit "FUNCTION", lit "PROCEDURE"]), blanks,
    .group 2 qualified, blanks0, char '(']

def calledUsage (t : Text) : Usage :=
  match triggerCall.find? t with
  | none => {}
  | some m =>
    match (m.text? 2).bind Name.normalizeCallee? with
    | none => {}
    | some callee =>
      let callees : NameSet := NameSet.insert {} (String.ofList callee)
      if (m.text? 1).any (eqIgnoreCase · "FUNCTION".toList) then { functions := callees }
      else { procedures := callees }

def postgresTrigger? (m : Found) : Option Trigger := do
  let trigger ← headerTrigger? m 2 3 5
  return { trigger with
    orReplace := (m.text? 1).isSome
    events := postgresEvents (← m.text? 4)
    usage := calledUsage m.start.rest }

/-! ## MySQL -/

def forEachRow : Pattern := all [.boundary, phrase ["FOR", "EACH", "ROW"], .boundary]

def bodyStart : Pattern :=
  all [.atStart, blanks0,
    opt (all [anyOf [lit "FOLLOWS", lit "PRECEDES"], blanks, qualified, blanks0]),
    opt (.group 1 (all [lit "BEGIN", .boundary]))]

/-- The words that open and close blocks. Those that close a construct whose opener does not count
are taken together with the word that names it. -/
def blockWord : Pattern :=
  all [.boundary,
    anyOf [lit "BEGIN", lit "CASE",
      all [lit "END", opt (all [blanks, anyOf [lit "IF", lit "LOOP", lit "WHILE", lit "REPEAT",
        lit "CASE"], .boundary])]],
    .boundary]

def blockEnd? (depth : Nat) : List Capture → Option Nat
  | [] => none
  | word :: words =>
    let spelled := upper word.text
    if spelled == "BEGIN".toList || spelled == "CASE".toList then blockEnd? (depth + 1) words
    else if spelled == "END".toList || endsWith "CASE".toList spelled then
      if depth ≤ 1 then some word.start else blockEnd? (depth - 1) words
    else blockEnd? depth words

def blockText? (t : Text) : Option Text :=
  (blockEnd? 1 ((blockWord.findAll t).map (·.whole))).map fun n => takeBytes n t

def statementText : Text → Text
  | [] => []
  | c :: t => if c == ';' || c == '$' && t.head? == some '$' then [] else c :: statementText t

/-- The body of a MySQL trigger in what follows its header: a block up to its end, or a single
statement. -/
def mysqlBody? (tail : Text) : Option Text := do
  let row ← forEachRow.find? tail
  let start ← bodyStart.find? row.stop.rest
  let body ←
    if (start.text? 1).isSome then blockText? start.stop.rest
    else some (statementText start.stop.rest)
  let body := trim body
  if body.isEmpty then none else some body

def mysqlTrigger? (m : Found) (tail : Text) : Option Trigger := do
  let trigger ← headerTrigger? m 1 2 4
  return { trigger with
    events := [upperString (← m.text? 3)]
    usage := ((mysqlBody? tail).map (bodyUsage .mysql)).getD {} }

def tailEnd (textEnd : Nat) (headers : List Nat) (m : Found) : Nat :=
  (headers.find? (m.start.offset < ·)).getD textEnd

/-- What stands between a header and the next. There is none if the next starts inside this one,
which a quoted name makes possible, and a header that breaks off before the name of its table. -/
def tail? (textEnd : Nat) (headers : List Nat) (m : Found) : Option Text :=
  let stop := tailEnd textEnd headers m
  if m.stop.offset ≤ stop then some (takeBytes (stop - m.stop.offset) m.stop.rest) else none

end TriggerScan

/-! ## Scans -/

/-- The triggers that are found by their headers, and where the headers start. -/
structure TriggerScan where
  triggers : List Trigger := []
  /-- The offsets of the headers of PostgreSQL triggers. -/
  postgresOffsets : List Nat := []
  /-- The offsets of the headers of MySQL triggers. -/
  mysqlOffsets : List Nat := []
  deriving Repr, DecidableEq

def TriggerScan.covers (s : TriggerScan) (start stop : Nat) : Bool :=
  (s.postgresOffsets ++ s.mysqlOffsets).any fun n => start ≤ n && n < stop

open TriggerScan in
/-- The triggers of a text, those of PostgreSQL first. A header of both shapes is one of PostgreSQL.
`none` if the header of a MySQL trigger has another header inside. -/
def scanTriggers? (t : Text) : Option TriggerScan := do
  let postgres := postgresHeader.findAll t
  let postgresOffsets := postgres.map (·.start.offset)
  let mysql := (mysqlHeader.findAll t).filter fun m => !postgresOffsets.contains m.start.offset
  let headers := (anyHeader.findAll t).map (·.start.offset)
  let tails ← mysql.mapM (tail? (byteLength t) headers)
  let mysqlTriggers := (List.zipWith mysqlTrigger? mysql tails).filterMap id
  return {
    triggers := postgres.filterMap postgresTrigger? ++ mysqlTriggers
    postgresOffsets
    mysqlOffsets := mysql.map (·.start.offset) }

end SqlOutline
