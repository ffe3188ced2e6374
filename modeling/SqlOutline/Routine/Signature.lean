import SqlOutline.Lexeme.Group
import SqlOutline.Model.Routine

/-!
# Signatures of routines

Parameters stand in parentheses or without them, directions before or behind the name of a
parameter, and clauses before the word that says what is defined.

## Main definitions

* `readParameters` — the parameters between commas.
* `readSignature?` — the header of a routine of any dialect.
-/

namespace SqlOutline

open Text

/-! ## Runs of lexemes -/

/-- The lexemes before the first at which a run ends, and the others. Whether a run ends at a lexeme
can hang on the one behind it. -/
def spanUntil (ends : Lexeme → Option Lexeme → Bool) : List Lexeme → List Lexeme × List Lexeme
  | [] => ([], [])
  | l :: ls =>
    if ends l ls.head? then ([], l :: ls)
    else
      let (run, rest) := spanUntil ends ls
      (l :: run, rest)

def spanTopLevel (ends : Lexeme → Option Lexeme → Bool) (depth : Nat) :
    List Lexeme → List Lexeme × List Lexeme
  | [] => ([], [])
  | l :: ls =>
    if depth = 0 && ends l ls.head? then ([], l :: ls)
    else
      let (run, rest) := spanTopLevel ends (depthBehind depth l) ls
      (l :: run, rest)

def dropWord (word : String) (ls : List Lexeme) : List Lexeme :=
  if ls.head?.any (·.isWord word) then ls.drop 1 else ls

/-! ## Parameters -/

def readDirection? : List Lexeme → Option (Direction × List Lexeme)
  | [] => none
  | l :: ls =>
    if l.isWord "IN" then
      if ls.head?.any (·.isWord "OUT") then some (.both, ls.drop 1) else some (.input, ls)
    else if l.isAnyWord ["OUT", "INOUT"] then (Direction.ofKeyword? l.text).map (·, ls)
    else none

/-- The direction before the name of a parameter, and the lexemes behind it. A direction alone is
none, and the mark of a parameter that takes all remaining arguments is passed over. -/
def leadingDirection (item : List Lexeme) : Option Direction × List Lexeme :=
  match readDirection? item with
  | some (direction, l :: ls) => (some direction, l :: ls)
  | some (_, []) => (none, item)
  | none => (none, dropWord "VARIADIC" item)

def isVariable (l : Lexeme) : Bool := l.startsWith '@'

def isParameterName (first : Lexeme) : List Lexeme → Bool
  | [] => isVariable first
  | next :: _ =>
    let continuesType := Name.isTypeName first.text
      && (next.isSymbol '(' || next.isAnyWord ["PRECISION", "VARYING", "WITH", "WITHOUT"])
    isVariable first
      || first.isName && !continuesType && !(next.isSymbol '.' || next.isSymbol '%')

def endsParameterType (l : Lexeme) (next : Option Lexeme) : Bool :=
  l.isAnyWord ["DEFAULT", "OUTPUT", "OUT", "READONLY"] || l.isSymbol '='
    || l.isSymbol ':' && next.any (·.isSymbol '=')

def isClosingMark (l : Lexeme) : Bool := l.isAnyWord ["OUTPUT", "OUT", "READONLY"]

def readDefault? (source : Text) : List Lexeme → Option String
  | [] => none
  | l :: ls =>
    let value :=
      if l.isSymbol ':' then spanText? source (ls.drop 1)
      else if l.isWord "DEFAULT" || l.isSymbol '=' then spanText? source ls
      else none
    value.map fun t => String.ofList (trim t)

/-- The direction of a parameter behind its name, and the lexemes behind it. A variable is an
input. -/
def trailingDirection (leading : Option Direction) (isVar : Bool) (ls : List Lexeme) :
    Option Direction × List Lexeme :=
  if isVar then (some .input, dropWord "AS" ls)
  else
    match leading, readDirection? ls with
    | none, some (direction, ls) => (some direction, ls)
    | _, _ => (leading, ls)

def readTyped? (source : Text) (name : Option String) (isVar : Bool) (direction : Option Direction)
    (ls : List Lexeme) : Option Parameter :=
  let (type, tail) := spanUntil endsParameterType ls
  let marks := tail.reverse.takeWhile isClosingMark
  let parameter : Parameter := {
    name
    dataType := spanType? source type
    direction := if isVar && marks.any (!·.isWord "READONLY") then some .output else direction
    default := readDefault? source (tail.take (tail.length - marks.length)) }
  if parameter.name.isNone && parameter.dataType.isNone then none else some parameter

/-- A parameter. -/
def readParameter? (source : Text) (item : List Lexeme) : Option Parameter :=
  match leadingDirection item with
  | (_, []) => none
  | (leading, first :: rest) =>
    let isVar := isVariable first
    let named := isParameterName first rest
    let (direction, behindMode) :=
      trailingDirection leading isVar (if named then rest else first :: rest)
    readTyped? source (if named then first.plain? else none) isVar direction
      (dropWord "NOCOPY" behindMode)

def readParameters (source : Text) (ls : List Lexeme) : List Parameter :=
  (splitTopLevel ls).filterMap (readParameter? source)

def endsVariables (l : Lexeme) (_ : Option Lexeme) : Bool :=
  l.isAnyWord ["AS", "WITH", "RETURNS", "FOR"]

/-- The parameters at the front of a list, in parentheses or as variables, and the lexemes behind
them. -/
def parametersAtFront (source : Text) (ls : List Lexeme) : List Parameter × List Lexeme :=
  match ls with
  | [] => ([], [])
  | first :: _ =>
    if first.isSymbol '(' then
      let (inner, rest) := bracketed ls
      (readParameters source inner, rest)
    else if isVariable first then
      let (run, rest) := spanTopLevel endsVariables 0 ls
      (readParameters source run, rest)
    else ([], ls)

/-! ## Return types -/

def returnTypeStopWords : List String :=
  ["AS", "IS", "LANGUAGE", "BEGIN", "RETURN", "DETERMINISTIC", "NOT", "READS", "MODIFIES", "NO",
    "CONTAINS", "COMMENT", "IMMUTABLE", "STABLE", "VOLATILE", "STRICT", "SECURITY", "CALLED",
    "PARALLEL", "COST", "ROWS", "PIPELINED", "RESULT_CACHE", "AUTHID", "PARALLEL_ENABLE", "SQL",
    "EXTERNAL", "LEAKPROOF", "SUPPORT", "TRANSFORM", "WINDOW"]

/-- Whether the type that a function returns ends at a lexeme. `WITH` belongs to a type only before
a time zone. -/
def endsReturnType (l : Lexeme) (next : Option Lexeme) : Bool :=
  l.isAnyWord returnTypeStopWords
    || l.isWord "WITH" && !next.any (·.isAnyWord ["TIME", "LOCAL"])
    || l.isSymbol ';' || l.kind == .dollarBody || l.kind == .stringLit

/-- The type that a function returns, and the lexemes behind it. A table variable is a table. -/
def readReturnType (source : Text) (ls : List Lexeme) : Option String × List Lexeme :=
  if ls.head?.any isVariable && (ls.drop 1).head?.any (·.isWord "TABLE") then
    let rest := ls.drop 2
    (some "TABLE", if rest.head?.any (·.isSymbol '(') then (bracketed rest).2 else rest)
  else
    let (type, rest) := spanTopLevel endsReturnType 0 ls
    (spanType? source type, rest)

/-! ## Bodies -/

def bodyStartWords : List String :=
  ["BEGIN", "SELECT", "INSERT", "UPDATE", "DELETE", "CALL", "REPLACE"]

def restText? (source : Text) (ls : List Lexeme) : Option Text := do
  let rest := trim (dropBytes (← ls.head?).start source)
  if rest.isEmpty then none else some rest

def bodyBehindAs? (source : Text) (ls : List Lexeme) : Option Text := do
  let first ← ls.head?
  match first.kind with
  | .dollarBody => some (dollarInner first.text)
  | .stringLit => some (stringContent first.text)
  | _ => restText? source ls

/-- The body in what follows a header, outside parentheses. `EXECUTE AS` starts no body, and
`RETURN` starts one behind the type that is returned. -/
def readBody? (source : Text) (returns : Bool) (before : Option Lexeme) (depth : Nat) :
    List Lexeme → Option Text
  | [] => none
  | l :: ls =>
    if depth = 0 && l.kind == .dollarBody then some (dollarInner l.text)
    else if depth = 0 && l.isAnyWord ["AS", "IS"] && !before.any (·.isWord "EXECUTE") then
      bodyBehindAs? source ls
    else if depth = 0 && l.isWord "RETURN" && returns then restText? source ls
    else if depth = 0 && l.isAnyWord bodyStartWords then restText? source (l :: ls)
    else readBody? source returns (some l) (depthBehind depth l) ls

/-! ## Headers -/

def routineWord? (l : Lexeme) : Option RoutineKind :=
  if l.isAnyWord ["PROCEDURE", "PROC"] then some .procedure
  else if l.isWord "FUNCTION" then some .function
  else none

def behindRoutineWord? : Nat → List Lexeme → Option (RoutineKind × List Lexeme)
  | 0, _ => none
  | _, [] => none
  | n + 1, l :: ls =>
    match routineWord? l with
    | some kind => some (kind, ls)
    | none => behindRoutineWord? n ls

def routineWindow : Nat := 12

def behindIfExists (ls : List Lexeme) : List Lexeme :=
  if ls.head?.any (·.isWord "IF") then ls.dropWhile (·.isAnyWord ["IF", "NOT", "EXISTS"]) else ls

def behindRoutineNumber : List Lexeme → List Lexeme
  | semicolon :: number :: ls =>
    if semicolon.isSymbol ';' && number.kind == .number then ls else semicolon :: number :: ls
  | ls => ls

def lexemeBefore? (all rest : List Lexeme) : Option Lexeme :=
  (all.take (all.length - rest.length)).getLast?

def signatureBehind (source : Text) (kind : RoutineKind) (alter orReplace : Bool)
    (name : QualifiedName) (front : List Parameter × List Lexeme) : Signature :=
  let (parameters, behindParameters) := front
  let returnWord := if kind == .function then behindParameters.head? else none
  let (returnType, rest) :=
    if returnWord.any (·.isAnyWord ["RETURNS", "RETURN"]) then
      readReturnType source (behindParameters.drop 1)
    else (none, behindParameters)
  let body := readBody? source (returnWord.any (·.isWord "RETURNS"))
    (lexemeBefore? (tokenize source) rest) 0 rest
  { kind, alter, orReplace, name, parameters, returnType, body }

/-- The header and body of a routine that is created or altered. -/
def readSignature? (source : Text) : Option Signature := do
  let lexemes := tokenize source
  let first ← lexemes.head?
  let alter := first.isWord "ALTER"
  if !alter && !first.isWord "CREATE" then none
  let behindVerb := lexemes.drop 1
  let orReplace := behindVerb.head?.any (·.isWord "OR")
    && (behindVerb.drop 1).head?.any (·.isAnyWord ["REPLACE", "ALTER"])
  let (kind, behindKind) ←
    behindRoutineWord? routineWindow (if orReplace then behindVerb.drop 2 else behindVerb)
  let (name, behindName) ← readName? source (behindIfExists behindKind)
  let front := parametersAtFront source (behindRoutineNumber behindName)
  return signatureBehind source kind alter orReplace name front

end SqlOutline
