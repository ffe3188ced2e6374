import SqlOutline.Sql.Grammar.TableDefinition

/-!
# Definitions of routines

## Main definitions

* `createFunction`, `createTrigger`, `createMacro`, `createProcedure` — one reader for each.
-/

namespace SqlOutline.Sql.Grammar

open Reader

/-! ## Functions -/

/-- A parameter of a function. A type that is not built in is the parameter's name, and its type
follows. -/
def parameter (g : Grammar) : Reader FunctionParameter := do
  let mode ← anyKeyword? ["IN", "OUT", "INOUT"]
  let first ← dataType g
  let (name, type) ←
    match first.custom with
    | some parts => do pure (parts.head?, ← dataType g)
    | none => pure (none, first)
  let hasDefault ← do
    if (← keyword? "DEFAULT") then pure true else symbol? "="
  let default ← if hasDefault then do pure (some (← exprPhrase g)) else pure none
  return ⟨mode, name, type, default⟩

def parameterUses (ps : List FunctionParameter) : List Use :=
  ps.flatMap fun p => p.dataType.uses ++ p.default.elim [] (·.uses)

/-- What a clause of a function's definition is about. Each may be given once. -/
inductive FunctionTrait where
  | body
  | language
  | volatility
  | nulls
  | parallel
  deriving DecidableEq

def functionText (d : Dialect) : Reader Unit := do
  match (← peek) with
  | some (.dollarQuoted _ _) => skip 1
  | _ =>
    let _ ← literalString d

def functionTrait? (g : Grammar) : Reader (Option (FunctionTrait × List Use)) := do
  if (← keyword? "AS") then
    functionText g.dialect
    return some (.body, [])
  else if (← keyword? "LANGUAGE") then
    let _ ← ident
    return some (.language, [])
  else if (← anyKeyword? ["IMMUTABLE", "STABLE", "VOLATILE"]).isSome then
    return some (.volatility, [])
  else if (← keywords? ["CALLED", "ON", "NULL", "INPUT"]) then return some (.nulls, [])
  else if (← keywords? ["RETURNS", "NULL", "ON", "NULL", "INPUT"]) then return some (.nulls, [])
  else if (← keyword? "STRICT") then return some (.nulls, [])
  else if (← keyword? "PARALLEL") then
    let _ ← anyKeyword ["UNSAFE", "RESTRICTED", "SAFE"]
    return some (.parallel, [])
  else if (← keyword? "RETURN") then return some (.body, (← g.expr).uses)
  else return none

/-- The definition of a function behind `FUNCTION`. -/
def createFunction (g : Grammar) (orReplace : Bool) : Reader Statement := do
  if !g.isAny [.postgresql, .plsql] then fail
  let name ← objectName
  let parameters ← parens (commaSeparatedOrNone (parameter g) ")")
  let returns ← after? "RETURNS" (dataType g)
  let traits ← many (functionTrait? g)
  if decide (traits.map (·.1)).Nodup then
    return {
      tree := .createFunction ⟨orReplace, name, parameters, returns⟩
      uses := parameterUses parameters ++ returns.elim [] (·.uses) ++ traits.flatMap (·.2) }
  else fail

def routineName (g : Grammar) : Reader (ObjectName × List Use) := do
  let name ← objectName
  if (← peekSymbol "(") then
    return (name, parameterUses (← parens (commaSeparatedOrNone (parameter g) ")")))
  else return (name, [])

/-! ## Triggers -/

def triggerTiming : Reader Unit := do
  if (← anyKeyword ["BEFORE", "AFTER", "INSTEAD"]) = "INSTEAD" then keyword "OF"

def triggerEventsUpTo : Nat → Reader Unit
  | 0 => fail
  | bound + 1 => do
    if (← anyKeyword ["INSERT", "UPDATE", "DELETE", "TRUNCATE"]) = "UPDATE" then
      let _ ← after? "OF" (commaSeparated ident)
    if (← keyword? "OR") then triggerEventsUpTo bound

/-- The name of the rows before or after a change. A clause that names no table ends such clauses,
but its keyword is taken. -/
def transitionTable? : Reader (Option Unit) := do
  if (← anyKeyword? ["OLD", "NEW"]).isSome then
    if (← keyword? "TABLE") then
      let _ ← keyword? "AS"
      let _ ← objectName
      return some ()
    else return none
  else return none

/-- The definition of a trigger behind `TRIGGER`. -/
def createTrigger (g : Grammar) : Reader Statement := do
  if !g.isAny [.postgresql, .plsql] then fail
  let _ ← objectName
  triggerTiming
  triggerEventsUpTo (← bound)
  keyword "ON"
  let _ ← objectName
  if (← keyword? "FROM") then anyName
  let _ ← characteristics
  if (← keyword? "REFERENCING") then
    let _ ← many transitionTable?
  keyword "FOR"
  let _ ← keyword? "EACH"
  let _ ← anyKeyword ["ROW", "STATEMENT"]
  let condition ← after? "WHEN" g.expr
  keyword "EXECUTE"
  let _ ← anyKeyword ["FUNCTION", "PROCEDURE"]
  let (_, uses) ← routineName g
  return { uses := condition.elim [] (·.uses) ++ uses }

/-! ## Macros and procedures -/

def macroParameter (g : Grammar) : Reader (List Use) := do
  let _ ← ident
  let hasDefault ← do
    if (← symbol? ":=") then pure true else symbol? "=>"
  if hasDefault then return (← g.expr).uses else return []

/-- The definition of a macro behind its keyword. -/
def createMacro (g : Grammar) : Reader Statement := do
  if g.dialect != .plsql then fail
  let _ ← objectName
  let parameters ← parens (commaSeparatedOrNone (macroParameter g) ")")
  keyword "AS"
  let body : List Use ←
    if (← keyword? "TABLE") then do pure (← g.query).uses
    else do pure (← g.expr).uses
  return { uses := parameters.flatten ++ body }

/-- Parameters of a procedure behind the opening parenthesis, and the closing one, at most `bound`.
A comma may stand alone or behind the last of them. -/
def procedureParametersUpTo (g : Grammar) : Nat → Reader (List Use)
  | 0 => fail
  | bound + 1 => do
    let uses ←
      if (← peek).any (·.isWord) then do
        let _ ← ident
        pure (← dataType g).uses
      else pure []
    let comma ← symbol? ","
    if (← symbol? ")") then return uses
    else if comma then return uses ++ (← procedureParametersUpTo g bound)
    else fail

/-- The definition of a procedure behind `PROCEDURE`. -/
def createProcedure (g : Grammar) : Reader Statement := do
  let _ ← objectName
  let parameters ←
    if (← symbol? "(") then do
      if (← symbol? ")") then pure [] else procedureParametersUpTo g (← bound)
    else pure []
  keywords ["AS", "BEGIN"]
  let body ← g.statements
  keyword "END"
  return { uses := parameters ++ body.flatMap (·.uses) }

end SqlOutline.Sql.Grammar
