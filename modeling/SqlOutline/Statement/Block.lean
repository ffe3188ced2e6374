import SqlOutline.Lexeme.Basic

/-!
# Blocks

`END IF`, `END LOOP` and the like close nothing, because their openers do not count either, and a
`BEGIN` that starts a transaction opens nothing.

## Main definitions

* `blockMark` — what a lexeme does to the blocks of procedural code.
-/

namespace SqlOutline

/-- What a lexeme does to the nesting of blocks. -/
inductive BlockMark where
  | opens
  | closes
  | none
  deriving Repr, DecidableEq

def transactionWords : List String :=
  ["TRAN", "TRANSACTION", "WORK", "ISOLATION", "DEFERRED", "IMMEDIATE", "EXCLUSIVE",
    "DISTRIBUTED"]

def uncountedEndWords : List String := ["IF", "LOOP", "WHILE", "REPEAT", "FOR"]

/-- What `l` does to the nesting of blocks between its neighbours. -/
def blockMark (before : Option Lexeme) (l : Lexeme) (after : Option Lexeme) : BlockMark :=
  if l.isWord "BEGIN" then
    match after with
    | some n =>
      if n.isSymbol ';' || n.isBoundary || n.isAnyWord transactionWords then .none else .opens
    | none => .none
  else if l.isWord "CASE" then
    if before.any (·.isWord "END") then .none else .opens
  else if l.isWord "END" then
    if after.any (·.isAnyWord uncountedEndWords) then .none else .closes
  else .none

end SqlOutline
