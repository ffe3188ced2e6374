import SqlOutline.Dialect.Basic
import SqlOutline.Sql.Tree

/-!
# Reading tokens

A reader fails because the tokens are not what it expects, or because of too deep nesting.
Alternatives are tried only after a failure of the first kind. Recursion is open: the grammar as a
whole is tied together by recursion on the number of levels that are left.

## Main definitions

* `Reader` — functions that take tokens from the front of a list.
* `Grammar` — the readers that are used one level further down.
* `Reader.attempt` — an alternative.
-/

namespace SqlOutline.Sql

/-- Why a reader fails. -/
inductive Failure where
  | unexpected
  | tooDeep
  deriving Repr, DecidableEq

/-- What a reader reads from. -/
structure Input where
  /-- The tokens that are left, without gaps. -/
  rest : List Token
  /-- Inside the conditions of a hierarchical query. -/
  hierarchical : Bool := false
  deriving Repr, DecidableEq

abbrev Reader := StateT Input (Except Failure)

namespace Reader

def fail {α : Type} : Reader α := throw .unexpected

def rest : Reader (List Token) := do return (← get).rest

def setRest (ts : List Token) : Reader Unit := modify fun s => { s with rest := ts }

def bound : Reader Nat := do return (← rest).length + 1

def peek : Reader (Option Token) := do return (← rest).head?

def peekAt (n : Nat) : Reader (Option Token) := do return (← rest)[n]?

def next : Reader (Option Token) := do
  let ts ← rest
  setRest ts.tail
  return ts.head?

def skip (n : Nat) : Reader Unit := do setRest ((← rest).drop n)

/-- Runs a reader; if it fails at an unexpected token, nothing is taken. -/
def attempt {α : Type} (p : Reader α) : Reader (Option α) := fun s =>
  match p s with
  | .ok (a, s') => .ok (some a, s')
  | .error .unexpected => .ok (none, s)
  | .error .tooDeep => .error .tooDeep

def outcome {α : Type} (p : Reader α) : Reader (Except Failure α) := fun s =>
  match p s with
  | .ok (a, s') => .ok (.ok a, s')
  | .error e => .ok (.error e, s)

def whenever (condition : Bool) (test : Reader Bool) : Reader Bool :=
  if condition then test else return false

/-! ## Keywords -/

def peekKeyword (k : String) : Reader Bool := do return (← peek).any (·.isKeyword k)

def peekAny (ks : List String) : Reader Bool := do
  return (← peek).any fun t => ks.any (t.isKeyword ·)

def keyword? (k : String) : Reader Bool := do
  if (← peekKeyword k) then
    skip 1
    return true
  else return false

def startsWithKeywords : List String → List Token → Bool
  | [], _ => true
  | _ :: _, [] => false
  | k :: ks, t :: ts => t.isKeyword k && startsWithKeywords ks ts

def keywords? (ks : List String) : Reader Bool := do
  if startsWithKeywords ks (← rest) then
    skip ks.length
    return true
  else return false

def anyKeyword? (ks : List String) : Reader (Option String) := do
  match (← peek) with
  | some t =>
    match ks.find? (t.isKeyword ·) with
    | some k =>
      skip 1
      return some k
    | none => return none
  | none => return none

def keyword (k : String) : Reader Unit := do if !(← keyword? k) then fail

def keywords (ks : List String) : Reader Unit := do if !(← keywords? ks) then fail

def anyKeyword (ks : List String) : Reader String := do
  match (← anyKeyword? ks) with
  | some k => return k
  | none => fail

/-! ## Symbols -/

def peekSymbol (s : String) : Reader Bool := do return (← peek).any (·.isSymbol s)

def symbol? (s : String) : Reader Bool := do
  if (← peekSymbol s) then
    skip 1
    return true
  else return false

def symbol (s : String) : Reader Unit := do if !(← symbol? s) then fail

/-! ## Sequences -/

def parens {α : Type} (p : Reader α) : Reader α := do
  symbol "("
  let a ← p
  symbol ")"
  return a

def commaSeparatedUpTo {α : Type} (p : Reader α) : Nat → Reader (List α)
  | 0 => fail
  | bound + 1 => do
    let a ← p
    if (← symbol? ",") then return a :: (← commaSeparatedUpTo p bound) else return [a]

def commaSeparated {α : Type} (p : Reader α) : Reader (List α) := do
  commaSeparatedUpTo p (← bound)

def commaSeparatedOrNone {α : Type} (p : Reader α) (stop : String) : Reader (List α) := do
  if (← peekSymbol stop) then return [] else commaSeparated p

def manyUpTo {α : Type} (p : Reader (Option α)) : Nat → Reader (List α)
  | 0 => fail
  | bound + 1 => do
    match (← p) with
    | some a => return a :: (← manyUpTo p bound)
    | none => return []

def many {α : Type} (p : Reader (Option α)) : Reader (List α) := do manyUpTo p (← bound)

def after? {α : Type} (k : String) (p : Reader α) : Reader (Option α) := do
  if (← keyword? k) then return some (← p) else return none

def afterAll? {α : Type} (ks : List String) (p : Reader α) : Reader (Option α) := do
  if (← keywords? ks) then return some (← p) else return none

end Reader

/-- The readers of the next level, in a dialect. -/
structure Grammar where
  dialect : Dialect
  /-- An expression whose operators bind more tightly than the given strength. -/
  subexpr : Nat → Reader Expr
  query : Reader Phrase
  /-- The definition of a column inside a data type. -/
  column : Reader Phrase
  statement : Reader Statement

namespace Grammar

def isAny (g : Grammar) (ds : List Dialect) : Bool := ds.contains g.dialect

def expr (g : Grammar) : Reader Expr := g.subexpr 0

/-- Statements with semicolons between them, at most `bound`. Behind a statement, the keyword `END`
ends the list. -/
def statementsUpTo (g : Grammar) : Nat → Reader (List Statement)
  | 0 => Reader.fail
  | bound + 1 => do
    Reader.setRest ((← Reader.rest).dropWhile (·.isSymbol ";"))
    if (← Reader.peek).isNone then return []
    else
      let s ← g.statement
      if (← Reader.peek).isNone || (← Reader.peekKeyword "END") then return [s]
      else
        if !(← Reader.peekSymbol ";") then Reader.fail
        return s :: (← statementsUpTo g bound)

def statements (g : Grammar) : Reader (List Statement) := do g.statementsUpTo (← Reader.bound)

def exhausted (d : Dialect) : Grammar where
  dialect := d
  subexpr _ := throw .tooDeep
  query := throw .tooDeep
  column := throw .tooDeep
  statement := throw .tooDeep

end Grammar

end SqlOutline.Sql
