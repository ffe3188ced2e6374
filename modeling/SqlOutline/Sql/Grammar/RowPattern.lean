import SqlOutline.Sql.Grammar.Call

/-!
# Patterns of rows

## Main definitions

* `rowMatching` — a pattern of symbols for rows that follow each other, each of which stands for the
  rows that meet a condition.
-/

namespace SqlOutline.Sql.Grammar

open Reader

/-! ## Patterns -/

def repetitions : Reader String := do
  let n ← uint
  if n < 4294967296 then return toString n else fail

def quantifierRange : Reader String := do
  if (← symbol? ",") then
    let most ← repetitions
    symbol "\x7d"
    return "\x7b," ++ most ++ "\x7d"
  else
    let least ← repetitions
    if (← symbol? ",") then
      if (← symbol? "\x7d") then return "\x7b" ++ least ++ ",\x7d"
      else
        let most ← repetitions
        symbol "\x7d"
        return "\x7b" ++ least ++ "," ++ most ++ "\x7d"
    else
      symbol "\x7d"
      return "\x7b" ++ least ++ "\x7d"

def quantifier? : Reader (Option String) := do
  match (← peek) with
  | some (.symbol s) =>
    if s = "*" || s = "+" then
      skip 1
      return some s
    else if s = "\x7b" then
      skip 1
      return some (← quantifierRange)
    else return none
  | some (.placeholder s) =>
    if s = "?" then
      skip 1
      return some s
    else return none
  | _ => return none

def patternPart (group : Reader String) : Reader String := do
  match (← peek) with
  | some (.symbol "^") =>
    skip 1
    return "^"
  | some (.placeholder "$") =>
    skip 1
    return "$"
  | some (.symbol "\x7b") =>
    skip 1
    symbol "-"
    let name ← ident
    symbol "-"
    symbol "\x7d"
    return "\x7b- " ++ name.text ++ " -\x7d"
  | some (.word ⟨"PERMUTE", none⟩) =>
    skip 1
    let names ← columnList
    return "PERMUTE(" ++ ", ".intercalate (names.map (·.text)) ++ ")"
  | some (.symbol "(") => return "( " ++ (← parens group) ++ " )"
  | _ => return (← ident).text

def rowPatternUpTo : Nat → Reader String
  | 0 => fail
  | bound + 1 => do
    let repeated : Reader String := do
      let part ← patternPart (rowPatternUpTo bound)
      return part ++ String.join (← many quantifier?)
    let first ← repeated
    let more ← many do
      if (← peekSymbol ")") || (← peekSymbol "|") then return none else return some (← repeated)
    let parts := " ".intercalate (first :: more)
    if (← symbol? "|") then return parts ++ " | " ++ (← rowPatternUpTo bound) else return parts

/-- A pattern of symbols. -/
def rowPattern : Reader String := do rowPatternUpTo (← bound)

/-! ## Matching -/

def rowsPerMatch? : Reader String := do
  if (← keywords? ["ONE", "ROW", "PER", "MATCH"]) then return "ONE ROW PER MATCH "
  else if (← keywords? ["ALL", "ROWS", "PER", "MATCH"]) then
    if (← keywords? ["SHOW", "EMPTY", "MATCHES"]) then
      return "ALL ROWS PER MATCH SHOW EMPTY MATCHES "
    else if (← keywords? ["OMIT", "EMPTY", "MATCHES"]) then
      return "ALL ROWS PER MATCH OMIT EMPTY MATCHES "
    else if (← keywords? ["WITH", "UNMATCHED", "ROWS"]) then
      return "ALL ROWS PER MATCH WITH UNMATCHED ROWS "
    else return "ALL ROWS PER MATCH "
  else return ""

def afterMatch? : Reader String := do
  if (← keywords? ["AFTER", "MATCH", "SKIP"]) then
    if (← keywords? ["PAST", "LAST", "ROW"]) then return "AFTER MATCH SKIP PAST LAST ROW "
    else if (← keywords? ["TO", "NEXT", "ROW"]) then return "AFTER MATCH SKIP  TO NEXT ROW "
    else
      keyword "TO"
      let place ← anyKeyword ["FIRST", "LAST"]
      return "AFTER MATCH SKIP TO " ++ place ++ " " ++ (← ident).text ++ " "
  else return ""

/-- The matching of rows behind its keyword. -/
def rowMatching (g : Grammar) : Reader Phrase := parens do
  let partition ← afterAll? ["PARTITION", "BY"] (commaSeparated g.expr)
  let order ← afterAll? ["ORDER", "BY"] (orderItems g)
  let measure : Reader Phrase := do
    let e ← g.expr
    let _ ← keyword? "AS"
    return e ++ " AS " ++ (← ident).text
  let measures ← after? "MEASURES" (commaSeparated measure)
  let rows ← rowsPerMatch?
  let after ← afterMatch?
  keyword "PATTERN"
  let pattern ← parens rowPattern
  keyword "DEFINE"
  let definition : Reader Phrase := do
    let name ← ident
    keyword "AS"
    return name.text ++ " AS " ++ (← g.expr)
  let definitions ← commaSeparated definition
  let clause (word : String) (p : Option Phrase) : Phrase := Phrase.optional word (p.map (· ++ " "))
  return " MATCH_RECOGNIZE("
    ++ clause "PARTITION BY " (partition.map fun es => Phrase.list (phrases es))
    ++ clause "ORDER BY " order
    ++ clause "MEASURES " (measures.map Phrase.list)
    ++ (rows ++ after ++ "PATTERN (" ++ pattern ++ ") DEFINE ")
    ++ Phrase.list definitions ++ ")"

end SqlOutline.Sql.Grammar
