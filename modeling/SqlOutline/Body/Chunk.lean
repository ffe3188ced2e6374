import SqlOutline.Sql.Token

/-!
# Chunks of a body

In a chunk, control words such as `IF x THEN` may stand before the statement proper.

## Main definitions

* `chunks` — the tokens between the semicolons outside parentheses.
* `parts` — what stands before the statement of a chunk, and the statement.
-/

namespace SqlOutline.Body

open Sql

def depthAfter (depth : Nat) (t : Token) : Nat :=
  if t.isSymbol "(" then depth + 1 else if t.isSymbol ")" then depth - 1 else depth

def consPiece (t : Token) : List (List Token) → List (List Token)
  | [] => [[t]]
  | piece :: pieces => (t :: piece) :: pieces

def piecesFrom (depth : Nat) : List Token → List (List Token)
  | [] => [[]]
  | t :: ts =>
    if depth = 0 && t.isSymbol ";" then [] :: piecesFrom 0 ts
    else consPiece t (piecesFrom (depthAfter depth t) ts)

def pieces (ts : List Token) : List (List Token) := piecesFrom 0 ts

/-- The chunks of a body: its pieces that hold more than gaps. -/
def chunks (ts : List Token) : List (List Token) :=
  (pieces ts).filter fun piece => piece.any (!·.isBlank)

def statementWords : List String :=
  ["PERFORM", "SELECT", "INSERT", "UPDATE", "DELETE", "MERGE", "WITH", "CALL"]

def startFrom? (depth : Nat) : List Token → Option Nat
  | [] => none
  | t :: ts =>
    if depth = 0 && t.plainWord?.any (·.isAny statementWords) then some 0
    else (startFrom? (depthAfter depth t) ts).map (· + 1)

/-- Where the statement of a chunk starts, if a keyword tells. -/
def statementStart? (chunk : List Token) : Option Nat := startFrom? 0 chunk

/-- What stands before the statement of a chunk, and the statement. -/
def parts (chunk : List Token) : List Token × List Token :=
  let start := (statementStart? chunk).getD 0
  (chunk.take start, chunk.drop start)

def asQuery : List Token → List Token
  | t :: ts =>
    if t.plainWord?.any (·.isAny ["PERFORM"]) then .word ⟨"SELECT", none⟩ :: ts else t :: ts
  | [] => []

end SqlOutline.Body
