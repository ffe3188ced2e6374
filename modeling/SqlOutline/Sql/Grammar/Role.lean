import SqlOutline.Sql.Grammar.ColumnOption

/-!
# Roles and policies

## Main definitions

* `createRole`, `alterRole` — roles with their options.
* `createPolicy`, `alterPolicy` — policies for the rows of a table.
-/

namespace SqlOutline.Sql.Grammar

open Reader

/-! ## Roles -/

/-- Options of a role that are switched on by a keyword, or off by the same with `NO` before it. -/
def roleSwitches : List String :=
  ["LOGIN", "INHERIT", "BYPASSRLS", "CREATEDB", "CREATEROLE", "SUPERUSER", "REPLICATION"]

def roleSwitch? : Reader (Option String) := do
  let both := roleSwitches.flatMap fun s => [(s, s), ("NO" ++ s, s)]
  match (← anyKeyword? (both.map (·.1))) with
  | some word => return both.lookup word
  | none => return none

def roleValue? (d : Dialect) : Reader (Option String) := do
  match (← anyKeyword? ["PASSWORD", "CONNECTION", "VALID"]) with
  | some "PASSWORD" =>
    if !(← keyword? "NULL") then
      let _ ← value d
    return some "PASSWORD"
  | some "CONNECTION" =>
    keyword "LIMIT"
    let _ ← numberValue d
    return some "CONNECTION"
  | some word =>
    keyword "UNTIL"
    let _ ← value d
    return some word
  | none => return none

def roleTies? : Reader (Option String) := do
  match (← anyKeyword? ["IN", "ROLE", "ADMIN", "USER"]) with
  | some "IN" =>
    let kind ← anyKeyword ["ROLE", "GROUP"]
    let _ ← commaSeparated ident
    return some ("IN " ++ kind)
  | some word =>
    let _ ← commaSeparated ident
    return some word
  | none => return none

def firstOf {α : Type} (p q : Reader (Option α)) : Reader (Option α) := do
  match (← p) with
  | some a => return some a
  | none => q

def roleOption? (d : Dialect) : Reader (Option String) := do
  match d with
  | .postgresql => firstOf roleSwitch? (firstOf (roleValue? d) roleTies?)
  | .tsql =>
    if (← keyword? "AUTHORIZATION") then
      let _ ← objectName
      return some "AUTHORIZATION"
    else return none
  | _ => return none

/-- The definition of roles behind `ROLE`. No kind of option is given twice. -/
def createRole (g : Grammar) : Reader Statement := do
  let _ ← keywords? ["IF", "NOT", "EXISTS"]
  let _ ← commaSeparated objectName
  let _ ← keyword? "WITH"
  let options ← many (roleOption? g.dialect)
  if decide options.Nodup then return {} else fail

def roleSetting (g : Grammar) : Reader (List Use) := do
  let _ ← objectName
  if (← keywords? ["FROM", "CURRENT"]) then return []
  else
    if !(← symbol? "=") then keyword "TO"
    if (← keyword? "DEFAULT") then return [] else return (← g.expr).uses

def changedOption? (d : Dialect) : Reader (Option String) := do
  return (← attempt (firstOf roleSwitch? (roleValue? d))).join

def roleChange (g : Grammar) : Reader (List Use) := do
  if (← keywords? ["IN", "DATABASE"]) then anyName
  if (← keyword? "RENAME") then
    keyword "TO"
    let _ ← ident
    return []
  else if (← keyword? "SET") then roleSetting g
  else if (← keyword? "RESET") then
    if !(← keyword? "ALL") then
      let _ ← objectName
    return []
  else
    let _ ← keyword? "WITH"
    if (← many (changedOption? g.dialect)).isEmpty then fail else return []

def memberChange : Reader Unit := do
  if (← keywords? ["ADD", "MEMBER"]) then
    let _ ← ident
  else if (← keywords? ["DROP", "MEMBER"]) then
    let _ ← ident
  else
    keywords ["WITH", "NAME"]
    symbol "="
    let _ ← ident

/-- A change of a role behind `ROLE`. -/
def alterRole (g : Grammar) : Reader Statement := do
  match g.dialect with
  | .postgresql =>
    let _ ← ident
    return { uses := ← roleChange g }
  | .tsql =>
    let _ ← ident
    memberChange
    return {}
  | _ => fail

/-! ## Policies -/

def policyScope (g : Grammar) : Reader (List Use) := do
  let _ ← after? "TO" (commaSeparated ident)
  let visible ← after? "USING" (parens g.expr)
  let checked ← afterAll? ["WITH", "CHECK"] (parens g.expr)
  return visible.elim [] (·.uses) ++ checked.elim [] (·.uses)

def policyTable : Reader ObjectName := do
  let _ ← ident
  keyword "ON"
  objectName

/-- The definition of a policy behind `POLICY`. -/
def createPolicy (g : Grammar) : Reader Statement := do
  let table ← policyTable
  let _ ← after? "AS" (anyKeyword ["PERMISSIVE", "RESTRICTIVE"])
  let _ ← after? "FOR" (anyKeyword ["ALL", "SELECT", "INSERT", "UPDATE", "DELETE"])
  return { uses := .relation table :: (← policyScope g) }

/-- A change of a policy behind `POLICY`. -/
def alterPolicy (g : Grammar) : Reader Statement := do
  let table ← policyTable
  if (← keyword? "RENAME") then
    keyword "TO"
    let _ ← ident
    return { uses := [.relation table] }
  else return { uses := .relation table :: (← policyScope g) }

end SqlOutline.Sql.Grammar
