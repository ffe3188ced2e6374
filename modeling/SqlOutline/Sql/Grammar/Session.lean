import SqlOutline.Sql.Grammar.Alteration

/-!
# Calls, settings, transactions and the like

Statements that neither query, change nor define anything.

## Main definitions

* `callProcedure`, `setVariable`, `grant` — calls, settings of the session, and rights.
-/

namespace SqlOutline.Sql.Grammar

open Reader

/-! ## Calls -/

/-- A call of a procedure behind `CALL`. -/
def callProcedure (g : Grammar) : Reader Statement := do
  let name ← objectName
  if (← peekSymbol "(") then
    let c ← call g name
    return { uses := .call name :: c.uses }
  else return { uses := [.call name] }

/-- The execution of a name behind `EXECUTE`. -/
def execute (g : Grammar) : Reader Statement := do
  let name ← objectName
  let bracketed ← symbol? "("
  let bare ←
    if bracketed then peekSymbol ")"
    else do pure ((← peek).isNone || (← peekKeyword "USING") || (← peekSymbol ";"))
  let arguments ← if bare then pure [] else commaSeparated g.expr
  if bracketed then symbol ")"
  let values ← after? "USING" (commaSeparated g.expr)
  return { uses := .execute name :: (arguments ++ values.getD []).flatMap (·.uses) }

/-! ## Transactions -/

def transactionMode? : Reader (Option Unit) := do
  if (← keywords? ["ISOLATION", "LEVEL"]) then
    if (← keywords? ["READ", "UNCOMMITTED"]) then return some ()
    else if (← keywords? ["READ", "COMMITTED"]) then return some ()
    else if (← keywords? ["REPEATABLE", "READ"]) then return some ()
    else
      keyword "SERIALIZABLE"
      return some ()
  else if (← keywords? ["READ", "ONLY"]) then return some ()
  else if (← keywords? ["READ", "WRITE"]) then return some ()
  else return none

def transactionModesUpTo (required : Bool) : Nat → Reader Unit
  | 0 => fail
  | bound + 1 => do
    match (← transactionMode?) with
    | some _ => transactionModesUpTo (← symbol? ",") bound
    | none => if required then fail

/-- Modes of a transaction. -/
def transactionModes : Reader Unit := do transactionModesUpTo false (← bound)

def beginTransaction (g : Grammar) : Reader Statement := do
  if g.dialect = .plsql then
    let _ ← anyKeyword? ["DEFERRED", "IMMEDIATE", "EXCLUSIVE"]
  let _ ← anyKeyword? ["TRANSACTION", "WORK"]
  transactionModes
  return {}

/-- What follows the end of a transaction, behind its keyword. -/
def endTransaction : Reader Statement := do
  let _ ← anyKeyword? ["TRANSACTION", "WORK"]
  if (← keyword? "AND") then
    let _ ← keyword? "NO"
    keyword "CHAIN"
  return {}

def rollback : Reader Statement := do
  let _ ← endTransaction
  if (← keyword? "TO") then
    let _ ← keyword? "SAVEPOINT"
    let _ ← ident
  return {}

/-! ## Variables and cursors -/

def settingValue (g : Grammar) : Reader (List Use) := do
  if (← peekAny ["SELECT", "WITH"]) then return (← g.query).uses else return (← g.expr).uses

/-- A setting whose variable has been read: several variables in parentheses, or one whose name is
given. -/
def settingTail (g : Grammar) (session : Bool) (target : Option String) : Reader Statement := do
  let mark ← do
    if (← symbol? "=") then pure true else keyword? "TO"
  if mark then
    if target.isNone then symbol "("
    let values ← commaSeparated (settingValue g)
    if target.isNone then symbol ")"
    return { uses := values.flatten }
  else
    match target with
    | none => fail
    | some name =>
      if name.toUpper = "TIMEZONE" then return { uses := (← g.expr).uses }
      else if name = "CHARACTERISTICS" then
        keywords ["AS", "TRANSACTION"]
        transactionModes
        return {}
      else if name = "TRANSACTION" && !session then
        if (← keyword? "SNAPSHOT") then
          let _ ← value g.dialect
        else transactionModes
        return {}
      else fail

def setRole? : Reader Bool := do
  if (← keyword? "ROLE") then
    if (← keyword? "NONE") then return true
    else return (← ident?).isSome
  else return false

/-- A setting behind `SET`. -/
def setVariable (g : Grammar) : Reader Statement := do
  let modifier ← anyKeyword? ["SESSION", "LOCAL", "HIVEVAR"]
  if modifier = some "HIVEVAR" then symbol ":"
  let before ← rest
  if modifier != some "HIVEVAR" && (← setRole?) then return {}
  else
    setRest before
    if (← keywords? ["TIME", "ZONE"]) then settingTail g modifier.isSome (some "TIMEZONE")
    else if (← whenever (g.dialect = .plsql) (symbol? "(")) then
      let _ ← commaSeparated ident
      symbol ")"
      settingTail g modifier.isSome none
    else
      let name ← objectName
      if name.text.toUpper = "NAMES" && g.isAny [.mysql, .plsql] then
        if !(← keyword? "DEFAULT") then
          let _ ← literalString g.dialect
          let _ ← after? "COLLATE" (literalString g.dialect)
        return {}
      else settingTail g modifier.isSome (some name.text)

def declaredVariable (g : Grammar) : Reader (List Use) := do
  let name ← ident
  if name.value.toList.head? != some '@' then fail
  let type : List Use ←
    if (← keyword? "CURSOR") then pure []
    else do
      let _ ← keyword? "AS"
      pure (← dataType g).uses
  if (← symbol? "=") then return type ++ (← g.expr).uses else return type

/-- A declaration behind `DECLARE`: variables in one dialect, a cursor in the others. -/
def declare (g : Grammar) : Reader Statement := do
  if g.dialect = .tsql then
    return { uses := (← commaSeparated (declaredVariable g)).flatten }
  else
    let _ ← ident
    let _ ← keyword? "BINARY"
    let _ ← anyKeyword? ["INSENSITIVE", "ASENSITIVE"]
    if !(← keyword? "SCROLL") then
      let _ ← keywords? ["NO", "SCROLL"]
    keyword "CURSOR"
    if (← anyKeyword? ["WITH", "WITHOUT"]).isSome then keyword "HOLD"
    keyword "FOR"
    return { uses := (← g.query).uses }

def fetchDirection (d : Dialect) : Reader Unit := do
  let direction ← anyKeyword? ["NEXT", "PRIOR", "FIRST", "LAST", "ALL", "ABSOLUTE", "RELATIVE",
    "FORWARD", "BACKWARD"]
  let counted ← match direction with
    | some "FORWARD" | some "BACKWARD" => do pure !(← keyword? "ALL")
    | some "ABSOLUTE" | some "RELATIVE" | none => pure true
    | some _ => pure false
  if counted then
    let _ ← numberValue d

def fetchRow (g : Grammar) : Reader Statement := do
  fetchDirection g.dialect
  let _ ← anyKeyword ["FROM", "IN"]
  let _ ← ident
  let _ ← after? "INTO" objectName
  return {}

/-! ## Rights and other statements -/

def privilege : Reader Unit := do
  match (← anyKeyword ["CONNECT", "CREATE", "DELETE", "EXECUTE", "INSERT", "REFERENCES", "SELECT",
    "TEMPORARY", "TRIGGER", "TRUNCATE", "UPDATE", "USAGE"]) with
  | "INSERT" | "REFERENCES" | "SELECT" | "UPDATE" =>
    let _ ← columnList?
  | _ => return

def privileges : Reader Unit := do
  if (← keyword? "ALL") then
    let _ ← keyword? "PRIVILEGES"
  else
    let _ ← commaSeparated privilege
  keyword "ON"
  if !(← keywords? ["ALL", "TABLES", "IN", "SCHEMA"]) then
    if !(← keywords? ["ALL", "SEQUENCES", "IN", "SCHEMA"]) then
      let _ ← anyKeyword? ["SEQUENCE", "SCHEMA", "TABLE"]
  let _ ← commaSeparated objectName

/-- A grant behind its keyword. -/
def grant : Reader Statement := do
  privileges
  keyword "TO"
  let _ ← commaSeparated ident
  let _ ← keywords? ["WITH", "GRANT", "OPTION"]
  let _ ← afterAll? ["GRANTED", "BY"] ident
  return {}

/-- A revocation behind its keyword. -/
def revoke : Reader Statement := do
  privileges
  keyword "FROM"
  let _ ← commaSeparated ident
  let _ ← afterAll? ["GRANTED", "BY"] ident
  let _ ← anyKeyword? ["CASCADE", "RESTRICT"]
  return {}

def comment (g : Grammar) : Reader Statement := do
  let _ ← keywords? ["IF", "EXISTS"]
  keyword "ON"
  let _ ← anyKeyword ["COLUMN", "TABLE", "EXTENSION", "SCHEMA", "DATABASE", "USER", "ROLE"]
  let _ ← objectName
  keyword "IS"
  if !(← keyword? "NULL") then
    let _ ← literalString g.dialect
  return {}

def prepare (g : Grammar) : Reader Statement := do
  let _ ← ident
  let types ← if (← peekSymbol "(") then parens (commaSeparated (dataType g)) else pure []
  keyword "AS"
  return { uses := types.flatMap (·.uses) ++ (← g.statement).uses }

def assertion (g : Grammar) : Reader Statement := do
  let e ← g.expr
  let message ← after? "AS" g.expr
  return { uses := e.uses ++ message.elim [] (·.uses) }

def kill (g : Grammar) : Reader Statement := do
  let target ← anyKeyword? ["CONNECTION", "QUERY", "MUTATION"]
  if target = some "MUTATION" && g.dialect != .plsql then fail
  let _ ← uint
  return {}

def notify (g : Grammar) : Reader Statement := do
  let _ ← ident
  if (← symbol? ",") then
    let _ ← literalString g.dialect
  return {}

def lockedTable : Reader Unit := do
  let _ ← ident
  let _ ← otherName? ["READ", "WRITE", "LOW_PRIORITY"]
  if (← keyword? "READ") then
    let _ ← keyword? "LOCAL"
  else if !(← keyword? "WRITE") then keywords ["LOW_PRIORITY", "WRITE"]

def lockTables : Reader Statement := do
  keyword "TABLES"
  let _ ← commaSeparated lockedTable
  return {}

def directiveValue (d : Dialect) : Reader Unit := do
  match (← peek) with
  | some (.quoted _) | some (.doubleQuoted _) | some (.number _ _) | some (.placeholder _)
  | some (.symbol _) =>
    let _ ← value d
  | some (.word w) => if w.quote = some '"' then skip 1 else fail
  | _ => fail

def directive (g : Grammar) : Reader Statement := do
  let _ ← objectName
  if (← peekSymbol "(") then parens (directiveValue g.dialect)
  else if (← symbol? "=") then directiveValue g.dialect
  return {}

def attach (g : Grammar) : Reader Statement := do
  let _ ← keyword? "DATABASE"
  let file ← g.expr
  keyword "AS"
  let _ ← ident
  return { uses := file.uses }

def detach : Reader Statement := do
  let _ ← keyword? "DATABASE"
  let _ ← keywords? ["IF", "EXISTS"]
  let _ ← ident
  return {}

end SqlOutline.Sql.Grammar
