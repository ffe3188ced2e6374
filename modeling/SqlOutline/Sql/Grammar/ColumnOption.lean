import SqlOutline.Sql.Grammar.Query

/-!
# Options of columns

## Main definitions

* `columnOption?` — a constraint with its characteristics, a default or generated value, or an
  option of a single product, known by its canonical text and by what it uses.
-/

namespace SqlOutline.Sql.Grammar

open Reader

/-! ## Foreign keys and characteristics -/

/-- When a constraint is checked. -/
structure Characteristics where
  deferrable : Option String := none
  initially : Option String := none
  enforced : Option String := none

def characteristicsUpTo (c : Characteristics) : Nat → Reader Characteristics
  | 0 => return c
  | bound + 1 => do
    if (← whenever c.deferrable.isNone (keywords? ["NOT", "DEFERRABLE"])) then
      characteristicsUpTo { c with deferrable := some "NOT DEFERRABLE" } bound
    else if (← whenever c.deferrable.isNone (keyword? "DEFERRABLE")) then
      characteristicsUpTo { c with deferrable := some "DEFERRABLE" } bound
    else if (← whenever c.initially.isNone (keyword? "INITIALLY")) then
      let time ← anyKeyword ["DEFERRED", "IMMEDIATE"]
      characteristicsUpTo { c with initially := some ("INITIALLY " ++ time) } bound
    else if (← whenever c.enforced.isNone (keyword? "ENFORCED")) then
      characteristicsUpTo { c with enforced := some "ENFORCED" } bound
    else if (← whenever c.enforced.isNone (keywords? ["NOT", "ENFORCED"])) then
      characteristicsUpTo { c with enforced := some "NOT ENFORCED" } bound
    else return c

/-- Characteristics of a constraint as they are written. -/
def characteristics : Reader String := do
  let c ← characteristicsUpTo {} 4
  let parts := [c.deferrable, c.initially, c.enforced].filterMap id
  return String.join (parts.map (" " ++ ·))

def referentialAction : Reader ReferentialAction := do
  if (← keyword? "RESTRICT") then return .restrict
  else if (← keyword? "CASCADE") then return .cascade
  else if (← keywords? ["SET", "NULL"]) then return .setNull
  else if (← keywords? ["NO", "ACTION"]) then return .noAction
  else if (← keywords? ["SET", "DEFAULT"]) then return .setDefault
  else fail

def referentialActions (r : Referral) : Nat → Reader Referral
  | 0 => return r
  | bound + 1 => do
    if (← whenever r.onDelete.isNone (keywords? ["ON", "DELETE"])) then
      referentialActions { r with onDelete := some (← referentialAction) } bound
    else if (← whenever r.onUpdate.isNone (keywords? ["ON", "UPDATE"])) then
      referentialActions { r with onUpdate := some (← referentialAction) } bound
    else return r

/-- What a foreign key refers to, behind `REFERENCES`. The columns it refers to may have to be
given; the actions follow them. -/
def referral (mandatory : Bool) : Reader Referral := do
  let table ← objectName
  let columns ← if mandatory then columnList else columnList?
  referentialActions ⟨table, columns, none, none⟩ 3

def Referral.actionsText (r : Referral) : String :=
  let action (event : String) : Option ReferentialAction → String
    | some a => " ON " ++ event ++ " " ++ a.text
    | none => ""
  action "DELETE" r.onDelete ++ action "UPDATE" r.onUpdate

/-! ## Sequences -/

def sequenceLimit? (d : Dialect) (word : String) : Reader String := do
  if (← keyword? word) then return " " ++ word ++ " " ++ (← signedNumber d)
  else if (← keywords? ["NO", word]) then return " NO " ++ word
  else return ""

def sequenceStep? (d : Dialect) (word noise : String) : Reader String := do
  if (← keyword? word) then
    let noiseText := if (← keyword? noise) then " " ++ noise else ""
    return " " ++ word ++ noiseText ++ " " ++ (← signedNumber d)
  else return ""

def sequenceCycle? : Reader String := do
  if (← keywords? ["NO", "CYCLE"]) then return " NO CYCLE"
  else if (← keyword? "CYCLE") then return " CYCLE"
  else return ""

/-- Options of a sequence. -/
def sequenceOptions (d : Dialect) : Reader String := do
  let increment ← sequenceStep? d "INCREMENT" "BY"
  let least ← sequenceLimit? d "MINVALUE"
  let most ← sequenceLimit? d "MAXVALUE"
  let start ← sequenceStep? d "START" "WITH"
  let cache ← if (← keyword? "CACHE") then do pure (" CACHE " ++ (← signedNumber d)) else pure ""
  let cycle ← sequenceCycle?
  return increment ++ least ++ most ++ start ++ cache ++ cycle

def sequenceOptions? (d : Dialect) : Reader String := do
  if (← peekSymbol "(") then
    let options ← parens (sequenceOptions d)
    return if options.isEmpty then "" else " (" ++ options ++ " )"
  else return ""

/-! ## Names and values -/

def clusteredOption : Reader String := do
  if (← keywords? ["CLUSTERED", "COLUMNSTORE", "INDEX"]) then
    match (← after? "ORDER" columnList) with
    | some columns => return "CLUSTERED COLUMNSTORE INDEX ORDER" ++ columnsText columns
    | none => return "CLUSTERED COLUMNSTORE INDEX"
  else
    keywords ["CLUSTERED", "INDEX"]
    let columns ← parens (commaSeparated do
      let name ← ident
      let direction := (← anyKeyword? ["ASC", "DESC"]).elim "" (" " ++ ·)
      return name.text ++ direction)
    return "CLUSTERED INDEX (" ++ ", ".intercalate columns ++ ")"

def partitionOption (g : Grammar) : Reader Phrase := do
  keyword "PARTITION"
  parens do
    let column ← ident
    keyword "RANGE"
    let direction := (← anyKeyword? ["LEFT", "RIGHT"]).elim "" (" " ++ ·)
    keywords ["FOR", "VALUES"]
    let values ← parens (exprs g)
    return "PARTITION (" ++ column.text ++ " RANGE" ++ direction ++ " FOR VALUES (" ++ values ++
      "))"

def keyValue (g : Grammar) : Reader Phrase := do
  let special := g.isAny [.tsql, .plsql]
  if special && (← peekKeyword "HEAP") then return ((← ident).text : Phrase)
  else if special && (← peekKeyword "PARTITION") then partitionOption g
  else if special && (← peekKeyword "CLUSTERED") then return ((← clusteredOption) : Phrase)
  else
    let name ← ident
    symbol "="
    return name.text ++ " = " ++ (← g.expr)

/-- Options in parentheses, perhaps none, behind a keyword, or nothing. -/
def options? (g : Grammar) (k : String) : Reader Phrase := do
  if (← keyword? k) then return Phrase.list (← parens (commaSeparatedOrNone (keyValue g) ")"))
  else return {}

def optionsBehind? (g : Grammar) (ks : List String) : Reader (Option Phrase) := do
  if (← keywords? ks) then return some (Phrase.list (← parens (commaSeparated (keyValue g))))
  else return none

/-! ## Options of columns -/

/-- An option of a column with its canonical text and what it uses. -/
structure OptionClause where
  option : ColumnOption
  phrase : Phrase

def plainOption (p : Phrase) : Option OptionClause := some ⟨.other, p⟩

def generationMode? : Reader String := do
  return (← anyKeyword? ["STORED", "VIRTUAL"]).elim "" (" " ++ ·)

def generated? (g : Grammar) : Reader (Option Phrase) := do
  if (← keywords? ["ALWAYS", "AS", "IDENTITY"]) then
    return some ("GENERATED ALWAYS AS IDENTITY" ++ (← sequenceOptions? g.dialect) : String)
  else if (← keywords? ["BY", "DEFAULT", "AS", "IDENTITY"]) then
    return some ("GENERATED BY DEFAULT AS IDENTITY" ++ (← sequenceOptions? g.dialect) : String)
  else if (← keywords? ["ALWAYS", "AS"]) then
    if (← peekSymbol "(") then
      let e ← parens g.expr
      if g.dialect = .postgresql && !(← peekKeyword "STORED") then fail
      return some ("GENERATED ALWAYS AS (" ++ e ++ ")" ++ (← generationMode?))
    else return none
  else return none

def identityRange? (d : Dialect) : Reader String := do
  if (← symbol? "(") then
    let seed ← signedNumber d
    symbol ","
    let step ← signedNumber d
    symbol ")"
    return "(" ++ seed ++ ", " ++ step ++ ")"
  else return ""

/-- An option that some dialects know, behind its keyword. Elsewhere the keyword is taken, and what
follows is read as another option. -/
def laterOption? (g : Grammar) : Reader (Option OptionClause) := do
  let d := g.dialect
  if (← keyword? "AUTO_INCREMENT") && g.isAny [.mysql, .plsql] then
    return plainOption "AUTO_INCREMENT"
  else if (← keyword? "AUTOINCREMENT") && d = .plsql then return plainOption "AUTOINCREMENT"
  else if (← keyword? "ASC") && d = .plsql then return plainOption "ASC"
  else if (← keyword? "DESC") && d = .plsql then return plainOption "DESC"
  else if (← keywords? ["ON", "UPDATE"]) && g.isAny [.mysql, .plsql] then
    return plainOption ("ON UPDATE " ++ (← g.expr))
  else if (← keyword? "GENERATED") then return (← generated? g).bind plainOption
  else if d = .plsql && (← peekKeyword "OPTIONS") then
    return plainOption ("OPTIONS(" ++ (← options? g "OPTIONS") ++ ")")
  else if (← keyword? "AS") && g.isAny [.mysql, .plsql] then
    let e ← parens g.expr
    return plainOption ("AS (" ++ e ++ ")" ++ (← generationMode?))
  else if (← keyword? "IDENTITY") && g.isAny [.tsql, .plsql] then
    return plainOption ("IDENTITY" ++ (← identityRange? d) : String)
  else if (← whenever (d = .plsql) (keywords? ["ON", "CONFLICT"])) then
    let action ← anyKeyword ["ROLLBACK", "ABORT", "FAIL", "IGNORE", "REPLACE"]
    return plainOption ("ON CONFLICT " ++ action : String)
  else return none

/-- An option of a column. -/
def columnOption? (g : Grammar) : Reader (Option OptionClause) := do
  let generic := g.dialect = .plsql
  if (← keywords? ["CHARACTER", "SET"]) then
    return plainOption ("CHARACTER SET " ++ (← objectName).text : String)
  else if (← keywords? ["NOT", "NULL"]) then return some ⟨.notNull, "NOT NULL"⟩
  else if (← keyword? "COMMENT") then
    match (← next) with
    | some (.quoted s) => return plainOption ("COMMENT " ++ quoteWith '\'' s : String)
    | _ => fail
  else if (← keyword? "NULL") then return plainOption "NULL"
  else if (← keyword? "DEFAULT") then return plainOption ("DEFAULT " ++ (← g.expr))
  else if (← whenever generic (keyword? "MATERIALIZED")) then
    return plainOption ("MATERIALIZED " ++ (← g.expr))
  else if (← whenever generic (keyword? "ALIAS")) then return plainOption ("ALIAS " ++ (← g.expr))
  else if (← whenever generic (keyword? "EPHEMERAL")) then
    if (← peekSymbol ",") || (← peekSymbol ")") then return plainOption "EPHEMERAL"
    else return plainOption ("EPHEMERAL " ++ (← g.expr))
  else if (← keywords? ["PRIMARY", "KEY"]) then
    return some ⟨.primaryKey, ("PRIMARY KEY" ++ (← characteristics) : String)⟩
  else if (← keyword? "UNIQUE") then
    return some ⟨.unique, ("UNIQUE" ++ (← characteristics) : String)⟩
  else if (← keyword? "REFERENCES") then
    let target ← referral false
    let rest ← characteristics
    return some ⟨.references target,
      ("REFERENCES " ++ target.table.text ++ columnsText target.columns
      ++ Referral.actionsText target ++ rest : String)⟩
  else if (← keyword? "CHECK") then return plainOption ("CHECK (" ++ (← parens g.expr) ++ ")")
  else laterOption? g

end SqlOutline.Sql.Grammar
