import SqlOutline.Reference.Collector
import SqlOutline.Sql.Token

/-!
# Harvesting references from tokens

Fragments that no grammar accepts still show what they use: a relation stands behind `FROM`, `JOIN`
or the verb of a change, a call is a name before a parenthesis.

## Main definitions

* `step`, `run` — what one token gives, and tokens from left to right.
* `harvest` — a collector with what tokens use.
-/

namespace SqlOutline

open Text Sql

namespace Harvest

/-! ## Classes of words -/

/-- Words that are no alias of a table. -/
def reserved : List String :=
  ["SELECT", "FROM", "WHERE", "JOIN", "INNER", "LEFT", "RIGHT", "FULL", "CROSS", "OUTER",
    "NATURAL", "ON", "USING", "GROUP", "ORDER", "HAVING", "LIMIT", "OFFSET", "FETCH", "UNION",
    "EXCEPT", "INTERSECT", "MINUS", "WINDOW", "SET", "VALUES", "FOR", "WITH", "INTO", "RETURNING",
    "LATERAL", "APPLY", "PIVOT", "UNPIVOT", "WHEN", "THEN", "ELSE", "END", "AND", "OR", "NOT",
    "OPTION", "LOOP", "BEGIN", "IF", "AS", "OF", "DEFAULT", "OUTPUT", "TOP", "DISTINCT", "ALL",
    "NULL", "IS", "IN", "EXISTS", "CASE", "CONNECT", "START", "MODEL", "QUALIFY", "WHILE",
    "DECLARE", "RETURN", "ELSIF", "EXCEPTION", "OVERWRITE", "IGNORE", "TABLESAMPLE", "LOCK",
    "PARTITION", "USE", "FORCE", "DO", "INSTEAD", "BEFORE", "AFTER", "EACH", "ROW"]

/-- Words before a parenthesis that are no function. -/
def constructs : List String :=
  ["IN", "EXISTS", "VALUES", "AS", "IF", "ELSIF", "WHILE", "RETURNS", "RETURN", "ON", "USING",
    "INTO", "TABLE", "KEY", "REFERENCES", "CHECK", "PRIMARY", "UNIQUE", "FOREIGN", "CONSTRAINT",
    "OVER", "FILTER", "WITHIN", "AND", "OR", "NOT", "WHEN", "THEN", "ELSE", "SELECT", "FROM",
    "WHERE", "JOIN", "SET", "DEFAULT", "ANY", "ALL", "SOME", "CAST", "TRY_CAST", "CONVERT",
    "EXTRACT", "SUBSTRING", "TRIM", "POSITION", "OVERLAY", "INTERVAL", "ROW", "ARRAY", "BY",
    "OF", "LIKE", "BETWEEN", "IS", "CASE", "UNION", "EXCEPT", "INTERSECT", "LIMIT", "TOP",
    "OUTPUT", "WITH", "FOR", "LOOP", "BEGIN", "DECLARE", "CURSOR", "OPEN", "FETCH", "PERFORM",
    "RAISE", "SIGNAL", "PARTITION", "OPTION", "IDENTITY", "RECORD", "EXEC", "EXECUTE", "CALL",
    "SETOF", "VARYING", "PRECISION", "INSERT", "UPDATE", "DELETE", "MERGE", "USE", "AT", "ZONE"]

/-- Words behind which a statement can start. -/
def leaders : List String := ["BEGIN", "THEN", "ELSE", "LOOP", "AS"]

/-- Words behind which a name is no call. -/
def definers : List String :=
  ["TABLE", "VIEW", "INDEX", "PROCEDURE", "FUNCTION", "TRIGGER", "TYPE", "PACKAGE", "SEQUENCE",
    "REFERENCES", "CURSOR"]

def isAny (words : List String) (t : Token) : Bool := t.plainWord?.any (·.isAny words)

def startsWith (words : List String) (ts : List Token) : Bool := ts.head?.any (isAny words)

def startsWithMark (mark : String) (ts : List Token) : Bool := ts.head?.any (·.isSymbol mark)

/-! ## Names -/

/-- The parts of the dotted chain at the head of a list and the number of its tokens. A part may be
followed by `@` and the name of a database link, which does not belong to the chain. -/
def chainParts : List Token → List String × Nat
  | .word w :: ts =>
    let link := if startsWithMark "@" ts && (ts.drop 1).head?.any Token.isWord then 2 else 0
    let rest := ts.drop link
    if startsWithMark "." rest && (rest.drop 1).head?.any Token.isWord then
      let (parts, n) := chainParts (rest.drop 1)
      (w.value :: parts, n + link + 2)
    else ([w.value], link + 1)
  | _ => ([], 0)
termination_by ts => ts.length
decreasing_by simp only [List.length_drop, List.length_cons]; omega

/-- The dotted chain at the head of a list and the number of its tokens. -/
def chain? (ts : List Token) : Option (Text × Nat) :=
  match chainParts ts with
  | ([], _) => none
  | (parts, n) => some (join ['.'] (parts.map String.toList), n)

def relation? (ts : List Token) : Option (Text × Nat) :=
  match ts with
  | .word w :: _ => if w.quote.isSome || !w.isAny reserved then chain? ts else none
  | _ => none

/-! ## Parentheses -/

/-- The number of tokens up to and including the parenthesis that closes the group at the head of a
list; `depth` parentheses are open before it. -/
def closing? (depth : Nat) : List Token → Option Nat
  | [] => none
  | t :: ts =>
    if t.isSymbol "(" then (closing? (depth + 1) ts).map (· + 1)
    else if t.isSymbol ")" then
      if depth - 1 = 0 then some 1 else (closing? (depth - 1) ts).map (· + 1)
    else (closing? depth ts).map (· + 1)

/-- For each token, whether the innermost parentheses around it hold no query. The stack says of
each open parenthesis whether a query follows it. -/
def plainFlagsFrom (stack : List Bool) : List Token → List Bool
  | [] => []
  | t :: ts =>
    let plain (stack : List Bool) : Bool := stack.head?.any (!·)
    if t.isSymbol "(" then
      plain stack :: plainFlagsFrom (startsWith ["SELECT", "WITH"] ts :: stack) ts
    else if t.isSymbol ")" then plain stack.tail :: plainFlagsFrom stack.tail ts
    else plain stack :: plainFlagsFrom stack ts

/-- For each token, whether the innermost parentheses around it hold no query. -/
def plainFlags (ts : List Token) : List Bool := plainFlagsFrom [] ts

/-! ## Lists of tables -/

/-- The number of tokens of an alias at the front and of the hints behind it. -/
def aliasLength (ts : List Token) : Nat :=
  let name :=
    match ts with
    | [] => 0
    | t :: rest =>
      if isAny ["AS"] t then (if rest.head?.any Token.isWord then 2 else 1)
      else
        match t with
        | .word w => if w.quote.isSome || !w.isAny reserved then 1 else 0
        | _ => 0
  let rest := ts.drop name
  if startsWith ["WITH"] rest && startsWithMark "(" (rest.drop 1) then
    match closing? 0 (rest.drop 1) with
    | some n => name + 1 + n
    | none => name
  else name

def runLength (p : Token → Bool) (ts : List Token) : Nat := (ts.takeWhile p).length

/-- Records the tables listed at the head of a list, each with its alias, and gives the number of
tokens read. Only behind `FROM` do further tables follow a comma. `rounds` bounds the number of
tables. -/
def tableList (commas : Bool) : Nat → Collector → List Token → Collector × Nat
  | 0, c, _ => (c, 0)
  | rounds + 1, c, ts =>
    let skipped := runLength (isAny ["LATERAL", "ONLY"]) ts
    let ts₁ := ts.drop skipped
    match relation? ts₁ with
    | none => (c, skipped)
    | some (name, n) =>
      let ts₂ := ts₁.drop n
      let (c, used) :=
        if startsWithMark "(" ts₂ then (c.addFunction name, (closing? 0 ts₂).getD 1)
        else (c.addRelation name, 0)
      let ts₃ := ts₂.drop used
      let width := aliasLength ts₃
      let ts₄ := ts₃.drop width
      let read := skipped + n + used + width
      if commas && startsWithMark "," ts₄ then
        let (c, more) := tableList commas rounds c (ts₄.drop 1)
        (c, read + 1 + more)
      else (c, read)

/-! ## Statements -/

/-- Which names count as calls. -/
structure Rules where
  /-- A name that is a whole statement is the call of a procedure. -/
  bareCalls : Bool := false
  deriving Repr, DecidableEq

/-- What harvesting knows between two tokens. -/
structure State where
  collector : Collector
  /-- The statement is a `MERGE`, so that `USING` names its source. -/
  inMerge : Bool := false

def endsStatement (ts : List Token) : Bool := ts.head?.all fun t => t.isSymbol ";" || t == .eof

def startsBehind (before : Option Token) : Bool :=
  before.all fun t => t.isSymbol ";" || isAny leaders t

/-- Records the common table expression that starts at the front. -/
def cte (c : Collector) (ts : List Token) : Collector :=
  let ts := if startsWith ["RECURSIVE"] ts then ts.drop 1 else ts
  match ts with
  | .word w :: rest =>
    if startsWith ["AS"] rest && startsWithMark "(" (rest.drop 1) then c.addCte w.value.toList
    else c
  | _ => c

/-- Records what a verb that changes data is applied to, and gives the number of tokens read behind
the verb. -/
def target (c : Collector) (ts : List Token) : Collector × Nat :=
  let n := runLength (isAny ["INTO", "IGNORE", "OVERWRITE", "LOW_PRIORITY", "DELAYED", "ONLY"]) ts
  let ts₁ := ts.drop n
  if startsWith ["FROM"] ts₁ then (c, n)
  else
    let top :=
      if startsWith ["TOP"] ts₁ then
        if startsWithMark "(" (ts₁.drop 1) then 1 + (closing? 0 (ts₁.drop 1)).getD 1 else 2
      else 0
    match relation? (ts₁.drop top) with
    | some (name, k) => (c.addRelation name, n + top + k)
    | none => (c, n + top)

/-- Records what `EXECUTE` calls, and gives the number of tokens read behind it. -/
def execute (c : Collector) (ts : List Token) : Collector × Nat :=
  if startsWith ["IMMEDIATE", "AS"] ts then (c, 1)
  else if startsWith ["FUNCTION", "PROCEDURE"] ts then
    match chain? (ts.drop 1) with
    | some (name, n) =>
      (if startsWith ["FUNCTION"] ts then c.addFunction name else c.addProcedure name, n + 1)
    | none => (c, 1)
  else
    let result :=
      match ts with
      | .word w :: rest =>
        if startsWithMark "=" rest && w.value.toList.head? == some '@' then 2 else 0
      | _ => 0
    if !c.executeIsCall then (c, result)
    else
      match chain? (ts.drop result) with
      | some (name, n) =>
        if name.head? == some '@' then (c, result) else (c.addProcedure name, result + n)
      | none => (c, result)

/-- Records the call that may start with the token `t` before `ts`, and gives the number of tokens
read behind `t`. -/
def call (rules : Rules) (c : Collector) (before : Option Token) (t : Token) (ts : List Token) :
    Collector × Nat :=
  match chain? (t :: ts) with
  | none => (c, 0)
  | some (name, n) =>
    let rest := ts.drop (n - 1)
    let single := !name.contains '.'
    let paren := startsWithMark "(" rest
    let construct := single && isAny constructs t
    let asProcedure :=
      startsBehind before &&
        (if paren then
          (closing? 0 rest).any (fun k => endsStatement (rest.drop k)) && !construct
        else
          rules.bareCalls && endsStatement rest
            && !(single && t.plainWord?.any (·.isKeyword)))
    if asProcedure then (c.addProcedure name, n - 1)
    else if paren && !construct
        && !(single && t.plainWord?.any fun w => Name.isTypeName w.value.toList) then
      (c.addFunction name, n - 1)
    else (c, n - 1)

/-- What the token `t` contributes, given the token before it, whether the parentheses around it
hold no query, and the tokens behind it; and the number of tokens that are read with it. -/
def step (rules : Rules) (st : State) (before : Option Token) (plain : Bool) (t : Token)
    (ts : List Token) : State × Nat :=
  let c := st.collector
  let withCollector (r : Collector × Nat) : State × Nat := ({ st with collector := r.1 }, r.2)
  if t.isSymbol ";" then ({ st with inMerge := false }, 0)
  else if t.isSymbol "," then withCollector (cte c ts, 0)
  else
    match t.plainWord? with
    | none => (st, 0)
    | some w =>
      let tables (commas : Bool) := withCollector (tableList commas (ts.length + 1) c ts)
      match w.upper with
      | "FROM" => if plain || before.any (isAny ["DISTINCT"]) then (st, 0) else tables true
      | "JOIN" => tables false
      | "UPDATE" | "DELETE" | "INSERT" | "MERGE" | "REPLACE" =>
        if before.any (fun b =>
            isAny ["FOR", "ON", "OR", "BEFORE", "AFTER", "OF", "INSTEAD"] b || b.isSymbol ",") then
          (st, 0)
        else
          let (c, n) := target c ts
          (⟨c, st.inMerge || w.upper == "MERGE"⟩, n)
      | "CALL" =>
        match chain? ts with
        | some (name, n) => withCollector (c.addProcedure name, n)
        | none => (st, 0)
      | "EXEC" | "EXECUTE" => withCollector (execute c ts)
      | "WITH" => withCollector (cte c ts, 0)
      | word =>
        if word == "USING" && st.inMerge then tables false
        else if definers.contains word then (st, (chain? ts).elim 0 (·.2))
        else withCollector (call rules c before t ts)

def run (rules : Rules) (st : State) (before : Option Token) : List Bool → List Token → State
  | _, [] => st
  | flags, t :: ts =>
    let (st, n) := step rules st before (flags.headD false) t ts
    run rules st (some ((ts.take n).getLast?.getD t)) (flags.drop (n + 1)) (ts.drop n)
termination_by _ ts => ts.length
decreasing_by simp only [List.length_drop, List.length_cons]; omega

end Harvest

/-- Records the references in a list of tokens. -/
def harvest (rules : Harvest.Rules) (c : Collector) (ts : List Token) : Collector :=
  let ts := ts.filter (!·.isGap)
  (Harvest.run rules ⟨c, false⟩ none (Harvest.plainFlags ts) ts).collector

end SqlOutline
