import SqlOutline.Routine.Signature
import SqlOutline.Statement.Block

/-!
# Packages

A member reaches to the semicolon that ends its outermost block; the members nested in it belong to
it.

## Main definitions

* `memberRuns` — the lexemes of the members of a package.
* `readPackage?` — a package with its members.
-/

namespace SqlOutline

open Text

/-! ## Members -/

/-- How far a member of a package has been read. -/
structure MemberState where
  /-- The depth of blocks. It is negative behind an `END` that closes nothing. -/
  depth : Int := 0
  /-- The depth of parentheses. -/
  parens : Nat := 0
  /-- A block has been opened since the last nested member ended. -/
  opened : Bool := false
  /-- The word before a body has been met, so the member is more than a declaration. -/
  hasBody : Bool := false
  /-- The number of nested members that have not ended. -/
  nested : Nat := 0
  deriving Repr, DecidableEq

def MemberState.advance (s : MemberState) (before : Option Lexeme) (l : Lexeme)
    (after : Option Lexeme) : MemberState :=
  let s := if s.depth == 0 && l.isAnyWord ["IS", "AS"] then { s with hasBody := true } else s
  let s :=
    if s.depth == 0 && s.hasBody && l.isAnyWord ["PROCEDURE", "FUNCTION"] then
      { s with nested := s.nested + 1 }
    else s
  match blockMark before l after with
  | .opens => { s with depth := s.depth + 1, opened := true }
  | .closes => { s with depth := s.depth - 1 }
  | .none => s

/-- The number of lexemes before the semicolon that ends a member, and whether the member has a
body; `none` if it does not end. -/
def memberEnd? (s : MemberState) (before : Option Lexeme) : List Lexeme → Option (Nat × Bool)
  | [] => none
  | l :: ls =>
    let goOn (s : MemberState) := (memberEnd? s (some l) ls).map fun (n, b) => (n + 1, b)
    if l.isSymbol '(' || l.isSymbol ')' then goOn { s with parens := depthBehind s.parens l }
    else if s.parens > 0 then goOn s
    else
      let s := s.advance before l ls.head?
      if l.isSymbol ';' && s.depth ≤ 0 then
        if !s.hasBody then some (0, false)
        else if !s.opened then goOn s
        else if s.nested = 0 then some (0, true)
        else goOn { s with nested := s.nested - 1, opened := false }
      else goOn s

/-- The lexemes of the members that have a body. They are over at the first block or `END` outside
a member, or at a member that does not end. -/
def memberRuns : List Lexeme → List (List Lexeme)
  | [] => []
  | l :: ls =>
    if l.isAnyWord ["BEGIN", "END"] then []
    else if !l.isAnyWord ["PROCEDURE", "FUNCTION"] then memberRuns ls
    else
      match memberEnd? {} (some l) ls with
      | none => []
      | some (n, hasBody) =>
        let runs := memberRuns (ls.drop (n + 1))
        if hasBody then (l :: ls.take n) :: runs else runs
termination_by ls => ls.length

/-! ## Packages -/

/-- The body of a package. -/
structure Package where
  name : QualifiedName
  orReplace : Bool
  /-- The members, with the name of the package in front of theirs. -/
  members : List Signature
  deriving Repr, DecidableEq

def Signature.inPackage (package : QualifiedName) (orReplace : Bool) (s : Signature) : Signature :=
  { s with
    name := ⟨package.schema, package.name ++ "." ++ s.name.name⟩
    orReplace }

def readMember? (source : Text) (run : List Lexeme) : Option Signature := do
  readSignature? ("CREATE ".toList ++ (← spanText? source run))

/-- The body of a package. -/
def readPackage? (source : Text) : Option Package := do
  let lexemes := tokenize source
  let header := (lexemes.take 8).takeWhile (!·.isWord "BODY")
  let behindBody ← behindWord? "BODY" 8 lexemes
  let orReplace := header.any (·.isAnyWord ["REPLACE", "ALTER"])
  let (name, rest) ← readName? source behindBody
  match rest.dropWhile (!·.isAnyWord ["AS", "IS"]) with
  | [] => none
  | _ :: contents =>
    let members := (memberRuns contents).filterMap (readMember? source)
    return ⟨name, orReplace, members.map (·.inPackage name orReplace)⟩

end SqlOutline
