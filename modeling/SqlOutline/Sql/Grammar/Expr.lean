import SqlOutline.Sql.Grammar.Call
import SqlOutline.Sql.Grammar.Strength

/-!
# Expressions

Operands are literals, names, calls, parenthesised expressions and the forms that keywords
introduce. A keyword that does not introduce its form is read as a name.

## Main definitions

* `subexprWith` — an operand and operators that bind more tightly than a given strength.
-/

namespace SqlOutline.Sql.Grammar

open Reader

/-! ## Forms introduced by keywords -/

def caseExpr (g : Grammar) : Reader Expr := do
  let subject : Option Expr ←
    if (← keyword? "WHEN") then pure none
    else do
      let e ← g.expr
      keyword "WHEN"
      pure (some e)
  let branch : Reader (Expr × Expr) := do
    let condition ← g.expr
    keyword "THEN"
    return (condition, ← g.expr)
  let first ← branch
  let more ← many (after? "WHEN" branch)
  let otherwise ← after? "ELSE" g.expr
  keyword "END"
  let branches := first :: more
  let text := "CASE" ++ Phrase.optional " " (subject.map (·.toPhrase))
    ++ Phrase.join "" (branches.map fun (c, r) => " WHEN " ++ c ++ " THEN " ++ r)
    ++ Phrase.optional " ELSE " (otherwise.map (·.toPhrase)) ++ " END"
  return {
    text := text.text
    uses := (subject.elim [] (·.uses)) ++ branches.flatMap (·.1.uses) ++ branches.flatMap (·.2.uses)
      ++ (otherwise.elim [] (·.uses)) }

def castFormat? (d : Dialect) : Reader String := do
  if (← keyword? "FORMAT") then
    let v ← value d
    if (← keywords? ["AT", "TIME", "ZONE"]) then
      return " FORMAT " ++ v ++ " AT TIME ZONE " ++ (← value d)
    else return " FORMAT " ++ v
  else return ""

def castExpr (g : Grammar) (k : String) : Reader Expr := parens do
  let e ← g.expr
  keyword "AS"
  let t ← dataType g
  let format ← castFormat? g.dialect
  return (k ++ "(" ++ e ++ " AS " ++ t.toPhrase ++ format ++ ")" : Phrase).expr

def convertExpr (g : Grammar) (k : String) : Reader Expr := parens do
  if g.dialect = .tsql then
    let t ← dataType g
    symbol ","
    let e ← g.expr
    let styles ← if (← symbol? ",") then commaSeparated g.expr else pure []
    return (k ++ "(" ++ t.text ++ ", " ++ Phrase.list (e :: styles |> phrases) ++ ")" : Phrase).expr
  else
    let e ← g.expr
    if (← keyword? "USING") then
      return (k ++ "(" ++ e ++ " USING " ++ (← objectName).text ++ ")" : Phrase).expr
    else
      symbol ","
      let t ← dataType g
      let charset ← afterAll? ["CHARACTER", "SET"] objectName
      let charsetText := charset.elim "" fun n => " CHARACTER SET " ++ n.text
      return (k ++ "(" ++ e ++ ", " ++ t.toPhrase ++ charsetText ++ ")" : Phrase).expr

def existsExpr (g : Grammar) (negation : String) : Reader Expr := parens do
  return (negation ++ "EXISTS (" ++ (← g.query) ++ ")" : Phrase).expr

def extractExpr (g : Grammar) : Reader Expr := parens do
  let field ← dateField g.dialect
  if (← keyword? "FROM") then
    return ("EXTRACT(" ++ field ++ " FROM " ++ (← g.expr) ++ ")" : Phrase).expr
  else
    symbol ","
    if g.dialect != .plsql then fail
    return ("EXTRACT(" ++ field ++ ", " ++ (← g.expr) ++ ")" : Phrase).expr

def roundExpr (g : Grammar) (k : String) : Reader Expr := parens do
  let e ← g.expr
  if (← keyword? "TO") then
    return (k ++ "(" ++ e ++ " TO " ++ (← dateField g.dialect) ++ ")" : Phrase).expr
  else if (← symbol? ",") then
    match (← next) with
    | some (.number s long) =>
      return (k ++ "(" ++ e ++ ", " ++ s ++ (if long then "L" else "") ++ ")" : Phrase).expr
    | _ => fail
  else return (k ++ "(" ++ e ++ ")" : Phrase).expr

def positionExpr (g : Grammar) (w : Word) : Reader Expr := do
  let special : Reader Expr := parens do
    let e ← g.subexpr (strengths g.dialect).between
    keyword "IN"
    return ("POSITION(" ++ e ++ " IN " ++ (← g.expr) ++ ")" : Phrase).expr
  match (← attempt special) with
  | some e => return e
  | none => return (← call g [ofWord w]).expr

def substringLength? (g : Grammar) : Reader (Option Expr) := do
  if (← keyword? "FOR") then return some (← g.expr)
  else if (← symbol? ",") then return some (← g.expr)
  else return none

def substringExpr (g : Grammar) : Reader Expr := parens do
  let e ← g.expr
  let comma ← symbol? ","
  let start : Option Expr ←
    if comma then pure (some (← g.expr)) else after? "FROM" g.expr
  let length ← substringLength? g
  let startText := Phrase.optional (if comma then ", " else " FROM ") (start.map (·.toPhrase))
  let lengthText := Phrase.optional (if comma then ", " else " FOR ") (length.map (·.toPhrase))
  return ("SUBSTRING(" ++ e ++ startText ++ lengthText ++ ")" : Phrase).expr

def overlayExpr (g : Grammar) : Reader Expr := parens do
  let e ← g.expr
  keyword "PLACING"
  let what ← g.expr
  keyword "FROM"
  let start ← g.expr
  let length ← after? "FOR" g.expr
  return ("OVERLAY(" ++ e ++ " PLACING " ++ what ++ " FROM " ++ start
    ++ Phrase.optional " FOR " (length.map (·.toPhrase)) ++ ")" : Phrase).expr

/-- A text without some characters at its ends behind `TRIM`. One dialect takes characters behind a
comma, the others only the comma itself. -/
def trimExpr (g : Grammar) : Reader Expr := parens do
  let side := match (← anyKeyword? ["BOTH", "LEADING", "TRAILING"]) with
    | some k => k ++ " "
    | none => ""
  let e ← g.expr
  if (← keyword? "FROM") then
    let source ← g.expr
    return {
      text := ("TRIM(" ++ side ++ e ++ " FROM " ++ source ++ ")" : Phrase).text
      uses := source.uses ++ e.uses }
  else if (← symbol? ",") && g.dialect = .plsql then
    let characters ← commaSeparated g.expr
    return ("TRIM(" ++ e ++ ", " ++ Phrase.list (phrases characters) ++ ")" : Phrase).expr
  else return ("TRIM(" ++ side ++ e ++ ")" : Phrase).expr

def searchMode? : Reader String := do
  if (← keywords? ["IN", "NATURAL", "LANGUAGE", "MODE", "WITH", "QUERY", "EXPANSION"]) then
    return " IN NATURAL LANGUAGE MODE WITH QUERY EXPANSION"
  else if (← keywords? ["IN", "NATURAL", "LANGUAGE", "MODE"]) then
    return " IN NATURAL LANGUAGE MODE"
  else if (← keywords? ["IN", "BOOLEAN", "MODE"]) then return " IN BOOLEAN MODE"
  else if (← keywords? ["WITH", "QUERY", "EXPANSION"]) then return " WITH QUERY EXPANSION"
  else return ""

def matchExpr (g : Grammar) : Reader Expr := do
  let columns ← columnList
  keyword "AGAINST"
  parens do
    let v ← value g.dialect
    let mode ← searchMode?
    let names := ", ".intercalate (columns.map (·.text))
    return Expr.ofText ("MATCH (" ++ names ++ ") AGAINST (" ++ v ++ mode ++ ")")

def structExpr (g : Grammar) : Reader Expr := do
  let (fields, closes) ← structFields (halfType g)
  if closes then fail
  let field : Reader Phrase := do
    let e ← g.expr
    match (← after? "AS" ident) with
    | some name => if fields.isEmpty then return e ++ " AS " ++ name.text else fail
    | none => return e.toPhrase
  let values := Phrase.list (← parens (commaSeparated field))
  return {
    text := (structText fields).text ++ "(" ++ values.text ++ ")"
    uses := values.uses ++ (structText fields).uses }

def arrayExpr (g : Grammar) (name : String) : Reader Expr := do
  let items ← commaSeparatedOrNone g.expr "]"
  symbol "]"
  return (name ++ "[" ++ Phrase.list (phrases items) ++ "]" : Phrase).expr

def entry (g : Grammar) (key : Reader Phrase) : Reader Phrase := do
  let k ← key
  symbol ":"
  return k ++ ": " ++ (← g.expr)

def inBraces (items : Reader (List Phrase)) : Reader Phrase := do
  symbol "\x7b"
  let found ← items
  symbol "\x7d"
  return "\x7b" ++ Phrase.list found ++ "\x7d"

def dictionary (g : Grammar) : Reader Phrase :=
  inBraces (commaSeparated (entry g do return ((← ident).text : Phrase)))

def mapEntries (g : Grammar) : Reader Phrase :=
  inBraces (commaSeparatedOrNone (entry g do return (← g.expr).toPhrase) "\x7d")

def bareCall (w : Word) : Expr := Expr.ofText (ofWord w).text

def timeCall (g : Grammar) (w : Word) : Reader Expr := do
  if (← symbol? "(") then
    let args ← argumentList g
    return Call.expr ⟨[ofWord w], (ofWord w).text ++ args.phrase.text, args.phrase.uses⟩
  else return bareCall w

def keywordExpr? (g : Grammar) (interval : Reader Expr) (w : Word) : Reader (Option Expr) := do
  let d := g.dialect
  match w.keyword with
  | "TRUE" => return if hasBooleans d then some (Expr.ofText "true") else none
  | "FALSE" => return if hasBooleans d then some (Expr.ofText "false") else none
  | "NULL" => return some (Expr.ofText "NULL")
  | "CURRENT_CATALOG" | "CURRENT_USER" | "SESSION_USER" | "USER" =>
    return if g.isAny [.postgresql, .plsql] then some (bareCall w) else none
  | "CURRENT_TIMESTAMP" | "CURRENT_TIME" | "CURRENT_DATE" | "LOCALTIME" | "LOCALTIMESTAMP" =>
    return some (← timeCall g w)
  | "CASE" => return some (← caseExpr g)
  | "CONVERT" => return some (← convertExpr g "CONVERT")
  | "TRY_CONVERT" =>
    if g.isAny [.tsql, .plsql] then return some (← convertExpr g "TRY_CONVERT") else return none
  | "CAST" | "TRY_CAST" | "SAFE_CAST" => return some (← castExpr g w.keyword)
  | "EXISTS" => return some (← existsExpr g "")
  | "EXTRACT" => return some (← extractExpr g)
  | "CEIL" | "FLOOR" => return some (← roundExpr g w.keyword)
  | "POSITION" => if (← peekSymbol "(") then return some (← positionExpr g w) else return none
  | "SUBSTRING" => return some (← substringExpr g)
  | "OVERLAY" => return some (← overlayExpr g)
  | "TRIM" => return some (← trimExpr g)
  | "INTERVAL" => return some (← interval)
  | "ARRAY" =>
    if (← symbol? "[") then return some (← arrayExpr g "ARRAY")
    else if (← peekSymbol "(") then
      let q ← parens g.query
      return some (Call.expr ⟨[ofWord w], (ofWord w).text ++ "(" ++ q.text ++ ")", q.uses⟩)
    else return none
  | "NOT" =>
    if (← keyword? "EXISTS") then return some (← existsExpr g "NOT ")
    else return some ("NOT " ++ (← g.subexpr (strengths d).negation) : Phrase).expr
  | "MATCH" => if g.isAny [.mysql, .plsql] then return some (← matchExpr g) else return none
  | "STRUCT" => if d = .plsql then return some (← structExpr g) else return none
  | "MAP" =>
    if d = .plsql && (← peekSymbol "\x7b") then
      return some ("MAP " ++ (← mapEntries g)).expr
    else return none
  | "PRIOR" =>
    if (← get).hierarchical then
      return some ("PRIOR " ++ (← g.subexpr (strengths d).sum) : Phrase).expr
    else return none
  | _ => return none

/-! ## Names and calls -/

/-- Parts of a dotted name. -/
inductive Chain where
  | name (parts : List Ident)
  | wildcard (parts : List Ident)

def chainUpTo (d : Dialect) (parts : List Ident) : Nat → Reader Chain
  | 0 => fail
  | bound + 1 => do
    if (← symbol? ".") then
      match (← next) with
      | some (.word w) => chainUpTo d (parts ++ [ofWord w]) bound
      | some (.quoted s) => chainUpTo d (parts ++ [⟨s, some '\''⟩]) bound
      | some (.symbol s) => if s = "*" && d = .postgresql then return .wildcard parts else fail
      | _ => fail
    else return .name parts

def wordExpr (g : Grammar) (w : Word) : Reader Expr := do
  let single : Expr := { text := (ofWord w).text, shape := .ident (ofWord w) }
  match (← peek) with
  | some (.symbol s) =>
    if s = "(" || s = "." then
      match (← chainUpTo g.dialect [ofWord w] (← bound)) with
      | .wildcard parts => return { text := ObjectName.text parts ++ ".*", shape := .wildcard }
      | .name parts =>
        if (← peekSymbol "(") then
          let outer := g.dialect = .tsql && (← peekAt 1).any (·.isSymbol "+")
            && (← peekAt 2).any (·.isSymbol ")")
          if outer then
            skip 3
            return Expr.ofText (ObjectName.text parts ++ " (+)")
          else return (← call g parts).expr
        else return { text := ObjectName.text parts, shape := .compound parts }
    else return single
  | some (.quoted _) | some (.doubleQuoted _) | some (.hex _) =>
    if w.value.toList.head? == some '_' then
      return Expr.ofText (w.value ++ " " ++ (← value g.dialect))
    else return single
  | _ => return single

def neverNames : List String := ["EXISTS", "INTERVAL", "STRUCT", "TRIM"]

/-- What a word starts, which has been taken, and whether it is complete: where a keyword does not
introduce its form and is read as a name, nothing more belongs to the operand. -/
def wordOperand (g : Grammar) (interval : Reader Expr) (w : Word) : Reader (Expr × Bool) := do
  match (← outcome (keywordExpr? g interval w)) with
  | .ok (some e) => return (e, false)
  | .ok none => return (← wordExpr g w, false)
  | .error failure =>
    if neverNames.contains w.keyword then throw failure
    else
      match (← outcome (wordExpr g w)) with
      | .ok e => return (e, true)
      | .error _ => throw failure

/-! ## Operands -/

def methods? (g : Grammar) (e : Expr) : Reader Expr := do
  if g.dialect != .tsql then return e
  let one : Reader (Option Call) := do
    if (← symbol? ".") then
      match (← next) with
      | some (.word w) => return some (← call g [ofWord w])
      | _ => fail
    else return none
  let chain : Reader (List Call) := do
    let calls ← many one
    if calls.isEmpty then fail
    return calls
  match (← attempt chain) with
  | some calls =>
    return (e ++ Phrase.join "" (calls.map fun c => ⟨"." ++ c.text, c.uses⟩) : Phrase).expr
  | none => return e

def typedLiteral (g : Grammar) (interval : Reader Expr) : Reader Expr := do
  let t ← dataType g
  if t.custom.isSome then fail
  else if t.text = "INTERVAL" then interval
  else return (t.toPhrase ++ " " ++ quoteWith '\'' (← literalString g.dialect) : Phrase).expr

/-- What an opening parenthesis starts, which has been taken: a query, an expression or a tuple, and
perhaps a field of it. -/
def parenthesised (g : Grammar) : Reader Expr := do
  let inner : Expr ←
    if (← peekAny ["SELECT", "WITH"]) then do
      let q ← g.query
      pure { ("(" ++ q ++ ")" : Phrase) with shape := .subquery }
    else do
      pure ("(" ++ Phrase.list (phrases (← commaSeparated g.expr)) ++ ")" : Phrase).expr
  symbol ")"
  let e ← methods? g inner
  if (← symbol? ".") then
    match (← next) with
    | some (.word w) => return (e ++ "." ++ (ofWord w).text : Phrase).expr
    | _ => fail
  else return e

def prefixOperators : List String := ["!!", "|/", "||/", "@", "~"]

def tokenOperand (g : Grammar) (t : Token) : Reader Expr := do
  let p := strengths g.dialect
  match t with
  | .symbol s =>
    if s = "(" then
      skip 1
      parenthesised g
    else if s = "[" then
      skip 1
      arrayExpr g ""
    else if s = "\x7b" && g.dialect = .plsql then return (← dictionary g).expr
    else if s = "-" || s = "+" then
      skip 1
      return (s ++ (← g.subexpr p.product) : Phrase).expr
    else if g.dialect = .postgresql && prefixOperators.contains s then
      skip 1
      return (s ++ (← g.subexpr p.sum) : Phrase).expr
    else if s = ":" || s = "@" then return Expr.ofText (← value g.dialect)
    else fail
  | .escaped _ =>
    if g.isAny [.postgresql, .plsql] then return Expr.ofText (← value g.dialect) else fail
  | _ => return Expr.ofText (← value g.dialect)

/-- An expression without operators behind it, with at most `bound` intervals inside each other. -/
def operandUpTo (g : Grammar) : Nat → Reader Expr
  | 0 => fail
  | bound + 1 => do
    let quantity := if g.dialect = .mysql then g.expr else operandUpTo g bound
    let interval := interval g quantity
    match (← attempt (typedLiteral g interval)) with
    | some e => return e
    | none =>
      let (e, complete) ←
        match (← peek) with
        | some (.word w) => do
          skip 1
          wordOperand g interval w
        | some t => do pure (← tokenOperand g t, false)
        | none => fail
      if complete then return e
      let e ← methods? g e
      match (← after? "COLLATE" objectName) with
      | some collation => return (e ++ " COLLATE " ++ collation.text : Phrase).expr
      | none => return e

/-- An expression without operators behind it. -/
def operand (g : Grammar) : Reader Expr := do operandUpTo g (← bound)

/-! ## Operators -/

def isOperatorOf (d : Dialect) (s : String) : Bool :=
  match s with
  | "//" => d = .plsql
  | "<<" | ">>" | "^@" | "&&" => d = .postgresql || d = .plsql
  | "#" => d = .postgresql
  | "::" | "[" | "!" => false
  | _ => true

def tokenText : Option Token → String
  | some (.word w) => (ofWord w).text
  | some (.symbol s) | some (.operator s) => s
  | some (.other c) => String.ofList [c]
  | some t => (literalText? t).getD ""
  | none => "EOF"

def operatorNameUpTo : Nat → Reader (List String)
  | 0 => fail
  | bound + 1 => do
    let part := tokenText (← next)
    if (← symbol? ".") then return part :: (← operatorNameUpTo bound) else return [part]

def binaryOperator? (g : Grammar) : Reader (Option String) := do
  match (← peek) with
  | some (.symbol s) =>
    if symbolStrength g.dialect s != 0 && isOperatorOf g.dialect s then
      skip 1
      return some (if s = "==" then "=" else s)
    else return none
  | some (.operator s) =>
    skip 1
    return some s
  | some (.word w) =>
    match w.keyword with
    | "AND" | "OR" | "XOR" =>
      skip 1
      return some w.keyword
    | "DIV" =>
      if g.dialect = .mysql then
        skip 1
        return some "DIV"
      else return none
    | "OPERATOR" =>
      if g.isAny [.postgresql, .plsql] then
        skip 1
        let parts ← parens do operatorNameUpTo (← bound)
        return some ("OPERATOR(" ++ ".".intercalate parts ++ ")")
      else return none
    | _ => return none
  | _ => return none

def quantified (g : Grammar) (left : Expr) (operator quantifier : String) (strength : Nat) :
    Reader Expr := do
  let query ← do
    pure ((← peekSymbol "(") &&
      (← peekAt 1).any fun t => t.isKeyword "SELECT" || t.isKeyword "WITH")
  let right ← if query then g.subexpr strength else parens (g.subexpr strength)
  if !(["=", "<>", "<", ">", "<=", ">="].contains operator) then fail
  let bracketed : Phrase := if right.shape = .subquery then right else "(" ++ right ++ ")"
  return (left ++ " " ++ operator ++ " " ++ quantifier ++ bracketed : Phrase).expr

def binary (g : Grammar) (left : Expr) (operator : String) (strength : Nat) : Reader Expr := do
  match (← if operator = "DIV" then pure none else anyKeyword? ["ANY", "ALL", "SOME"]) with
  | some quantifier => quantified g left operator quantifier strength
  | none =>
    let right ← if operator = "DIV" then g.expr else g.subexpr strength
    let shape : Shape := match operator, left.shape with
      | "=", .ident target => .assignment target right
      | _, _ => .other
    return { (left ++ " " ++ operator ++ " " ++ right : Phrase) with shape }

def isTest (g : Grammar) (left : Expr) : Reader Expr := do
  let negation := if (← keyword? "NOT") then "NOT " else ""
  match (← anyKeyword? ["NULL", "TRUE", "FALSE", "UNKNOWN"]) with
  | some k => return (left ++ " IS " ++ negation ++ k : Phrase).expr
  | none =>
    keywords ["DISTINCT", "FROM"]
    return (left ++ " IS " ++ negation ++ "DISTINCT FROM " ++ (← g.expr) : Phrase).expr

def inTest (g : Grammar) (left : Expr) (negation : String) : Reader Expr := do
  if (← keyword? "UNNEST") then
    let e ← parens g.expr
    return (left ++ " " ++ negation ++ "IN UNNEST(" ++ e ++ ")" : Phrase).expr
  else parens do
    let items : Phrase ←
      if (← peekAny ["SELECT", "WITH"]) then g.query
      else pure (Phrase.list (phrases (← commaSeparated g.expr)))
    return (left ++ " " ++ negation ++ "IN (" ++ items ++ ")" : Phrase).expr

def escape? (d : Dialect) : Reader String := do
  match (← after? "ESCAPE" (literalString d)) with
  | some s => return " ESCAPE '" ++ s ++ "'"
  | none => return ""

def test (g : Grammar) (left : Expr) : Reader Expr := do
  let p := strengths g.dialect
  let negation := if (← keyword? "NOT") then "NOT " else ""
  match (← anyKeyword? ["REGEXP", "RLIKE", "IN", "BETWEEN", "LIKE", "ILIKE", "SIMILAR"]) with
  | some "IN" => inTest g left negation
  | some "BETWEEN" =>
    let low ← g.subexpr p.between
    keyword "AND"
    let high ← g.subexpr p.between
    return (left ++ " " ++ negation ++ "BETWEEN " ++ low ++ " AND " ++ high : Phrase).expr
  | some "SIMILAR" =>
    keyword "TO"
    let pattern ← g.subexpr p.like
    return (left ++ " " ++ negation ++ "SIMILAR TO " ++ pattern ++
      (← escape? g.dialect) : Phrase).expr
  | some k =>
    let _ ← whenever (k = "REGEXP") (keyword? "RLIKE")
    let any := if (← whenever (k = "LIKE" || k = "ILIKE") (keyword? "ANY")) then "ANY " else ""
    let pattern ← g.subexpr p.like
    let escape ← if k = "LIKE" || k = "ILIKE" then escape? g.dialect else pure ""
    return (left ++ " " ++ negation ++ k ++ " " ++ any ++ pattern ++ escape : Phrase).expr
  | none => fail

/-- The end of a slice behind its first colon: an upper bound, a second colon and a step, each of
which may be missing. -/
def sliceEnd (g : Grammar) : Reader Phrase := do
  if (← symbol? "]") then return ("]" : Phrase)
  else
    let upper ← g.expr
    if (← symbol? "]") then return upper ++ "]"
    else
      symbol ":"
      if (← symbol? "]") then return upper ++ "]"
      else
        let step ← g.expr
        symbol "]"
        return upper ++ ":" ++ step ++ "]"

def subscript (g : Grammar) (left : Expr) : Reader Expr := do
  if (← whenever (g.dialect != .mysql) (symbol? ":")) then
    return (left ++ "[:" ++ (← sliceEnd g) : Phrase).expr
  else
    let lower ← g.expr
    if (← symbol? "]") then return (left ++ "[" ++ lower ++ "]" : Phrase).expr
    else
      if g.dialect = .mysql then fail
      symbol ":"
      return (left ++ "[" ++ lower ++ ":" ++ (← sliceEnd g) : Phrase).expr

/-- An operator behind an expression, of the given strength, and what stands on its right. -/
def infixStep (g : Grammar) (left : Expr) (strength : Nat) : Reader Expr := do
  match (← binaryOperator? g) with
  | some operator => binary g left operator strength
  | none =>
    match (← peek) with
    | some (.word w) =>
      match w.keyword with
      | "IS" =>
        skip 1
        isTest g left
      | "AT" =>
        skip 1
        keywords ["TIME", "ZONE"]
        return (left ++ " AT TIME ZONE " ++ (← g.subexpr strength) : Phrase).expr
      | "NOT" | "IN" | "BETWEEN" | "LIKE" | "ILIKE" | "SIMILAR" | "REGEXP" | "RLIKE" => test g left
      | _ => fail
    | some (.symbol s) =>
      match s with
      | "::" =>
        skip 1
        return (left ++ "::" ++ (← dataType g).toPhrase : Phrase).expr
      | "!" =>
        skip 1
        if g.dialect = .postgresql then return (left ++ "!" : Phrase).expr else fail
      | "[" =>
        skip 1
        subscript g left
      | _ => fail
    | _ => fail

/-- Operators behind an expression that bind more tightly than the given strength, at most
`bound`. -/
def infixSteps (g : Grammar) (strength : Nat) (left : Expr) : Nat → Reader Expr
  | 0 => fail
  | bound + 1 => do
    let found := infixStrength g.dialect (← rest)
    if strength < found then infixSteps g strength (← infixStep g left found) bound
    else return left

def subexprWith (g : Grammar) (strength : Nat) : Reader Expr := do
  infixSteps g strength (← operand g) (← bound)

end SqlOutline.Sql.Grammar
