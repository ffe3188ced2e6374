import SqlOutline.Sql.Grammar.Basic

/-!
# Binding strength of operators

One dialect has a scale of its own, in which the operators without fixed meaning bind more tightly
than comparisons.

## Main definitions

* `infixStrength` — the larger, the more tightly an operator binds.
-/

namespace SqlOutline.Sql.Grammar

/-- The strengths of the kinds of operators. -/
structure Strengths where
  cast : Nat := 50
  zone : Nat := 41
  product : Nat := 40
  sum : Nat := 30
  exclusive : Nat := 24
  bitAnd : Nat := 23
  caret : Nat := 22
  bitOr : Nat := 21
  between : Nat := 20
  comparison : Nat := 20
  like : Nat := 19
  is : Nat := 17
  special : Nat := 16
  negation : Nat := 15
  conjunction : Nat := 10
  disjunction : Nat := 5
  deriving Repr, DecidableEq

/-- The scale of a dialect. -/
def strengths (d : Dialect) : Strengths :=
  if d = .postgresql then
    ⟨140, 110, 90, 80, 75, 70, 100, 70, 60, 50, 60, 40, 70, 30, 20, 10⟩
  else {}

def comparisons : List String :=
  ["=", "<", "<=", "<>", ">", ">=", "==", "~", "~*", "!~", "!~*", "~~", "~~*", "!~~", "!~~*", "<=>"]

def specials : List String :=
  ["->", "->>", "#>", "#>>", "@>", "<@", "#-", "@?", "@@", "?", "?&", "?|"]

def symbolStrength (d : Dialect) (s : String) : Nat :=
  let p := strengths d
  let ownScale := d = .postgresql
  if comparisons.contains s then p.comparison
  else if specials.contains s then p.special
  else if s = "+" || s = "-" then p.sum
  else if s = "*" || s = "/" || s = "//" || s = "%" then p.product
  else if s = "||" then if ownScale then p.special else p.product
  else if s = "|" then p.bitOr
  else if s = "&" then p.bitAnd
  else if s = "^" then p.caret
  else if s = "#" || s = ">>" || s = "<<" then if ownScale then p.special else p.caret
  else if s = "::" then p.cast
  else if s = "[" then if ownScale then 130 else p.cast
  else if s = "!" || s = "&&" || s = "^@" then if ownScale then p.special else p.cast
  else 0

def testStrength (p : Strengths) (k : String) : Nat :=
  if k = "IN" || k = "BETWEEN" then p.between
  else if ["LIKE", "ILIKE", "RLIKE", "REGEXP", "SIMILAR"].contains k then p.like
  else 0

def keywordOf (t : Option Token) : String :=
  match t with
  | some (.word w) => w.keyword
  | _ => ""

/-- The strength of the operator at the head of a token list, or zero. -/
def infixStrength (d : Dialect) (ts : List Token) : Nat :=
  let p := strengths d
  match ts with
  | .word w :: rest =>
    match w.keyword with
    | "OR" => p.disjunction
    | "AND" => p.conjunction
    | "XOR" => p.exclusive
    | "AT" =>
      if keywordOf rest.head? = "TIME" && keywordOf rest[1]? = "ZONE" then p.zone else 0
    | "NOT" => testStrength p (keywordOf rest.head?)
    | "IS" => p.is
    | "OPERATOR" => p.between
    | "DIV" => p.product
    | "COLLATE" => if d = .postgresql then 120 else 0
    | k => testStrength p k
  | .symbol s :: _ => symbolStrength d s
  | .operator _ :: _ => p.special
  | _ => 0

end SqlOutline.Sql.Grammar
