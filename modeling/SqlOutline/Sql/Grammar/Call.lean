import SqlOutline.Sql.Grammar.DataType

/-!
# Calls of functions

## Main definitions

* `call` — a function name with its arguments, a filter, an order within groups, and a window.
-/

namespace SqlOutline.Sql.Grammar

open Reader

/-- A call: the function, its canonical text and what its arguments and clauses use. -/
structure Call where
  name : ObjectName
  text : String
  uses : List Use

def Call.expr (c : Call) : Expr := { text := c.text, uses := .function c.name :: c.uses }

instance : Coe Expr Phrase := ⟨Expr.toPhrase⟩

def phrases (es : List Expr) : List Phrase := es.map Expr.toPhrase

/-! ## Sorting -/

def nullsOrder? : Reader String := do
  if (← keywords? ["NULLS", "FIRST"]) then return " NULLS FIRST"
  else if (← keywords? ["NULLS", "LAST"]) then return " NULLS LAST"
  else return ""

def orderTail (g : Grammar) : Reader Phrase := do
  let direction := match (← anyKeyword? ["ASC", "DESC"]) with
    | some k => " " ++ k
    | none => ""
  let nulls ← nullsOrder?
  let fill ←
    if (← whenever (g.dialect = .plsql) (keywords? ["WITH", "FILL"])) then do
      let from? ← after? "FROM" g.expr
      let to? ← after? "TO" g.expr
      let step? ← after? "STEP" g.expr
      pure (" WITH FILL" ++ Phrase.optional " FROM " (from?.map (·.toPhrase))
        ++ Phrase.optional " TO " (to?.map (·.toPhrase))
        ++ Phrase.optional " STEP " (step?.map (·.toPhrase)))
    else pure ({} : Phrase)
  return direction ++ nulls ++ fill

/-- An expression to sort by. -/
def orderItem (g : Grammar) : Reader Phrase := do
  let e ← g.expr
  return e ++ (← orderTail g)

def orderItems (g : Grammar) : Reader Phrase := do
  return Phrase.list (← commaSeparated (orderItem g))

/-! ## Intervals -/

def dateFields : List String :=
  ["YEAR", "MONTH", "WEEK", "DAY", "DAYOFWEEK", "DAYOFYEAR", "DATE", "DATETIME", "HOUR", "MINUTE",
    "SECOND", "CENTURY", "DECADE", "DOY", "DOW", "EPOCH", "ISODOW", "ISOYEAR", "ISOWEEK", "JULIAN",
    "MICROSECOND", "MICROSECONDS", "MILLENIUM", "MILLENNIUM", "MILLISECOND", "MILLISECONDS",
    "NANOSECOND", "NANOSECONDS", "QUARTER", "TIME", "TIMEZONE", "TIMEZONE_ABBR", "TIMEZONE_HOUR",
    "TIMEZONE_MINUTE", "TIMEZONE_REGION"]

def intervalUnits : List String :=
  ["YEAR", "MONTH", "WEEK", "DAY", "HOUR", "MINUTE", "SECOND", "CENTURY", "DECADE", "DOW", "DOY",
    "EPOCH", "ISODOW", "ISOYEAR", "JULIAN", "MICROSECOND", "MICROSECONDS", "MILLENIUM",
    "MILLENNIUM", "MILLISECOND", "MILLISECONDS", "NANOSECOND", "NANOSECONDS", "QUARTER", "TIMEZONE",
    "TIMEZONE_HOUR", "TIMEZONE_MINUTE"]

def dateField (d : Dialect) : Reader String := do
  let open? := d == .postgresql || d == .plsql
  match (← peek) with
  | some (.word w) =>
    if dateFields.contains w.keyword then
      skip 1
      if (← whenever (w.keyword = "WEEK" && d = .plsql) (symbol? "(")) then
        let day ← ident
        symbol ")"
        return "WEEK(" ++ day.text ++ ")"
      else return w.keyword
    else if open? then return (← ident).text
    else fail
  | some (.quoted _) => if open? then return (← ident).text else fail
  | _ => fail

def interval (g : Grammar) (quantity : Reader Expr) : Reader Expr := do
  let required := g.dialect == .mysql
  let e ← quantity
  let unit ←
    if (← peekAny intervalUnits) then pure (some (← dateField g.dialect))
    else if required then fail
    else pure none
  let unitText := unit.elim "" (" " ++ ·)
  if unit == some "SECOND" then
    if (← symbol? "(") then
      let n ← uint
      let text ←
        if (← symbol? ",") then do pure ("(" ++ toString n ++ ", " ++ toString (← uint) ++ ")")
        else pure ("(" ++ toString n ++ ")")
      symbol ")"
      return ("INTERVAL " ++ e ++ " SECOND " ++ text : Phrase).expr
    else return ("INTERVAL " ++ e ++ unitText : Phrase).expr
  else
    let size ← precision?
    let sizeText := if size.isEmpty then "" else " " ++ size
    if (← keyword? "TO") then
      let last ← dateField g.dialect
      let fraction ← if last = "SECOND" then precision? else pure ""
      let fractionText := if fraction.isEmpty then "" else " " ++ fraction
      return ("INTERVAL " ++ e ++ unitText ++ sizeText ++ " TO " ++ last ++
        fractionText : Phrase).expr
    else return ("INTERVAL " ++ e ++ unitText ++ sizeText : Phrase).expr

/-! ## Windows -/

def frameBound (g : Grammar) : Reader Phrase := do
  if (← keywords? ["CURRENT", "ROW"]) then return "CURRENT ROW"
  else
    let rows : Phrase ←
      if (← keyword? "UNBOUNDED") then pure (("UNBOUNDED" : String) : Phrase)
      else do
        match (← peek) with
        | some (.quoted _) =>
          let literal : Reader Expr := do
            let e := Expr.ofText (← value g.dialect)
            match (← after? "COLLATE" objectName) with
            | some collation => return (e ++ " COLLATE " ++ collation.text : Phrase).expr
            | none => return e
          pure (← interval g (if g.dialect = .mysql then g.expr else literal)).toPhrase
        | _ => pure (← g.expr).toPhrase
    let side ← anyKeyword ["PRECEDING", "FOLLOWING"]
    return rows ++ " " ++ side

def frame (g : Grammar) : Reader Phrase := do
  let units ← anyKeyword ["ROWS", "RANGE", "GROUPS"]
  if (← keyword? "BETWEEN") then
    let lower ← frameBound g
    keyword "AND"
    let upper ← frameBound g
    return units ++ " BETWEEN " ++ lower ++ " AND " ++ upper
  else return units ++ " " ++ (← frameBound g)

/-- A window behind its opening parenthesis, and the closing one. -/
def windowSpec (g : Grammar) : Reader Phrase := do
  let name : List Phrase ←
    match (← peek) with
    | some (.word w) =>
      if !w.isKeyword then pure [((← ident).text : Phrase)]
      else pure []
    | _ => pure []
  let partition ← afterAll? ["PARTITION", "BY"] (commaSeparated g.expr)
  let order ← afterAll? ["ORDER", "BY"] (orderItems g)
  let frame : List Phrase ←
    if (← symbol? ")") then pure []
    else do
      let f ← frame g
      symbol ")"
      pure [f]
  let parts := name
    ++ partition.toList.map (fun es => (Phrase.list (phrases es)).behind "PARTITION BY ")
    ++ order.toList.map (·.behind "ORDER BY ")
    ++ frame
  return Phrase.join " " parts

/-! ## Arguments -/

def starIdent? : Token → Option Ident
  | .word w => some (ofWord w)
  | .quoted s => some ⟨s, some '\''⟩
  | _ => none

def starQualifierUpTo (read : List Ident) : Nat → Reader (Option (List Ident))
  | 0 => return none
  | bound + 1 => do
    if (← symbol? ".") then
      if (← symbol? "*") then return some read
      else
        match (← next).bind starIdent? with
        | some i => starQualifierUpTo (read ++ [i]) bound
        | none => fail
    else return none

def wildcardOr (g : Grammar) : Reader Expr := do
  let before ← rest
  match before.head?.bind starIdent? with
  | some first =>
    skip 1
    match (← starQualifierUpTo [first] (← bound)) with
    | some qualifier => return { text := ObjectName.text qualifier ++ ".*", shape := .wildcard }
    | none =>
      setRest before
      g.expr
  | none =>
    if (← symbol? "*") then return { text := "*", shape := .wildcard } else g.expr

def argumentMark (d : Dialect) : Reader String := do
  if (← keyword? "VALUE") then return "VALUE"
  else if (← whenever (d != .tsql) (symbol? "=>")) then return "=>"
  else if (← whenever (d == .plsql) (symbol? ":=")) then return ":="
  else if (← whenever (d == .postgresql || d == .tsql) (symbol? ":")) then return ":"
  else fail

/-- An argument, with a name before it or without. -/
def functionArg (g : Grammar) : Reader Phrase := do
  let named : Reader Phrase := do
    let name : Phrase ←
      if g.isAny [.postgresql, .tsql] then pure (← g.expr).toPhrase
      else pure ((← ident).text : Phrase)
    let mark ← argumentMark g.dialect
    return name ++ " " ++ mark ++ " " ++ (← wildcardOr g)
  match (← attempt named) with
  | some p => return p
  | none => return (← wildcardOr g).toPhrase

def nullTreatment? : Reader (Option Phrase) := do
  match (← anyKeyword? ["RESPECT", "IGNORE"]) with
  | some k =>
    keyword "NULLS"
    return some (k ++ " NULLS")
  | none => return none

def jsonNulls? : Reader (List Phrase) := do
  if (← keywords? ["ABSENT", "ON", "NULL"]) then return ["ABSENT ON NULL"]
  else if (← keywords? ["NULL", "ON", "NULL"]) then return ["NULL ON NULL"]
  else return []

def overflow? (g : Grammar) : Reader (List Phrase) := do
  if (← keywords? ["ON", "OVERFLOW"]) then
    if (← keyword? "ERROR") then return ["ON OVERFLOW ERROR"]
    else
      keyword "TRUNCATE"
      let filler : Phrase ←
        if (← peekAny ["WITH", "WITHOUT"]) then pure {}
        else do
          match (← peek) with
          | some (.quoted _) | some (.escaped _) | some (.unicode _) | some (.national _)
          | some (.hex _) => pure (" " ++ (← g.expr))
          | _ => fail
      let count ← anyKeyword ["WITH", "WITHOUT"]
      keyword "COUNT"
      return ["ON OVERFLOW TRUNCATE" ++ filler ++ " " ++ count ++ " COUNT"]
  else return []

/-- Arguments of a call. -/
structure Arguments where
  phrase : Phrase
  /-- The treatment of nulls stands among the arguments. -/
  treatsNulls : Bool := false

/-- Arguments behind the opening parenthesis, and the closing one. -/
def argumentList (g : Grammar) : Reader Arguments := do
  let early ← jsonNulls?
  if (← symbol? ")") then return { phrase := "(" ++ Phrase.join " " early ++ ")" }
  else
    let all ← keyword? "ALL"
    let distinct ← keyword? "DISTINCT"
    if all && distinct then fail
    let duplicates := if all then "ALL " else if distinct then "DISTINCT " else ""
    let args ← commaSeparated (functionArg g)
    let nulls ← if g.dialect = .plsql then nullTreatment? else pure none
    let order ← afterAll? ["ORDER", "BY"] (orderItems g)
    let limit ← after? "LIMIT" g.expr
    let having ←
      if (← whenever (g.dialect = .plsql) (keyword? "HAVING")) then do
        let side ← anyKeyword ["MIN", "MAX"]
        pure [("HAVING " ++ side ++ " " ++ (← g.expr) : Phrase)]
      else pure []
    let separator ←
      if (← whenever (g.isAny [.plsql, .mysql]) (keyword? "SEPARATOR")) then do
        pure [("SEPARATOR " ++ (← value g.dialect) : Phrase)]
      else pure []
    let overflow ← overflow? g
    let late ← jsonNulls?
    symbol ")"
    let clauses : List Phrase := early ++ nulls.toList ++ order.toList.map (·.behind "ORDER BY ")
      ++ limit.toList.map (·.toPhrase.behind "LIMIT ") ++ having ++ separator ++ overflow ++ late
    let tail : Phrase := if clauses.isEmpty then {} else " " ++ Phrase.join " " clauses
    return { phrase := "(" ++ duplicates ++ Phrase.list args ++ tail ++ ")",
             treatsNulls := nulls.isSome }

/-- The call of a function whose name has been read. -/
def call (g : Grammar) (name : ObjectName) : Reader Call := do
  symbol "("
  let first ← argumentList g
  let (parameters, args) ←
    if (← whenever (g.dialect = .plsql) (symbol? "(")) then do pure (first.phrase, ← argumentList g)
    else pure (({} : Phrase), first)
  let within ← afterAll? ["WITHIN", "GROUP"] (parens do
    keywords ["ORDER", "BY"]
    orderItems g)
  let filter ←
    if (← whenever (g.dialect = .postgresql) (keyword? "FILTER")) then do
      if (← symbol? "(") then
        if (← keyword? "WHERE") then
          let e ← g.expr
          symbol ")"
          pure (some e)
        else pure none
      else pure none
    else pure none
  let nulls ← if args.treatsNulls then pure none else nullTreatment?
  let window : Option Phrase ← after? "OVER" do
    if (← symbol? "(") then return "(" ++ (← windowSpec g) ++ ")"
    else return ((← ident).text : Phrase)
  let withinText := Phrase.optional " WITHIN GROUP (ORDER BY " (within.map (· ++ ")"))
  let filterText := Phrase.optional " FILTER (WHERE " (filter.map (fun e => e ++ ")"))
  let nullsText := Phrase.optional " " nulls
  let overText := Phrase.optional " OVER " window
  return {
    name
    text := (name.text ++ parameters ++ args.phrase ++ withinText ++ filterText ++ nullsText
      ++ overText : Phrase).text
    uses := parameters.uses ++ args.phrase.uses ++ filterText.uses ++ overText.uses
      ++ withinText.uses }

end SqlOutline.Sql.Grammar
