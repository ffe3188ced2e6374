import SqlOutline.Text.Blank
import SqlOutline.Text.Case

/-!
# Names and type spellings

`"HR"."Orders"`, `[HR].[Orders]` and the same in back quotes all name `HR.Orders`.

## Main definitions

* `normalizeChain?`, `normalizeType?` — the one form of a name or of a type.
* `QualifiedName` — an object, perhaps in a schema.
-/

namespace SqlOutline

open Text

namespace Name

def isQuotePair (first last : Char) : Bool :=
  (first == '"' && last == '"') || (first == '`' && last == '`') || (first == '[' && last == ']')

/-- An identifier without the white space around it and without one pair of quotes; `none` if
nothing but white space is left. -/
def stripQuotes? (t : Text) : Option Text :=
  match trim t with
  | [] => none
  | [c] => some [c]
  | first :: rest =>
    if rest.getLast?.any (isQuotePair first) then some rest.dropLast else some (first :: rest)

/-- The segments of a dotted chain. A dot inside quotes, the closing quote of which is `quote`,
does not separate. -/
def segmentsFrom (quote : Option Char) : Text → List Text
  | [] => [[]]
  | c :: t =>
    let within (quote : Option Char) : List Text :=
      match segmentsFrom quote t with
      | [] => [[c]]
      | p :: ps => (c :: p) :: ps
    match quote with
    | none =>
      if c = '.' then [] :: segmentsFrom none t
      else if c = '"' || c = '`' then within (some c)
      else if c = '[' then within (some ']')
      else within none
    | some q => if c = q then within none else within quote

def segments (t : Text) : List Text := segmentsFrom none t

def joinDotted? (parts : List Text) : Option Text :=
  match parts.filter (!·.isEmpty) with
  | [] => none
  | p :: ps => some (join ['.'] (p :: ps))

/-- A dotted chain with the quotes of every segment removed. -/
def normalizeChain? (t : Text) : Option Text :=
  joinDotted? ((segments t).filterMap stripQuotes?)

/-- A dotted chain like `normalizeChain?`, with every segment cut at its first `@`. -/
def normalizeCallee? (t : Text) : Option Text :=
  joinDotted? ((segments t).filterMap fun s => stripQuotes? (s.takeWhile (· != '@')))

/-! ## Type spellings -/

def dropBlankBefore (c : Char) : Text → Text
  | [] => []
  | d :: t =>
    if isBlank d && (t.dropWhile isBlank).head? == some c then dropBlankBefore c t
    else d :: dropBlankBefore c t

/-- A text without the white space runs that follow `c`; `after` says whether `c` stands before
the text. -/
def dropBlankAfterFrom (c : Char) (after : Bool) : Text → Text
  | [] => []
  | d :: t =>
    if after && isBlank d then dropBlankAfterFrom c true t
    else d :: dropBlankAfterFrom c (d == c) t

def dropBlankAfter (c : Char) (t : Text) : Text := dropBlankAfterFrom c false t

/-- A type spelling without white space at its ends and around its parentheses and commas; `none`
if it is blank. -/
def normalizeType? (t : Text) : Option Text :=
  match trim t with
  | [] => none
  | c :: r =>
    some <| dropBlankAfter ',' <| dropBlankBefore ',' <| dropBlankBefore ')' <|
      dropBlankAfter '(' <| dropBlankBefore '(' (c :: r)

def typeNames : List String :=
  ["DECIMAL", "NUMERIC", "NUMBER", "INT", "INTEGER", "SMALLINT", "BIGINT", "TINYINT",
    "MEDIUMINT", "DOUBLE", "FLOAT", "REAL", "DATE", "TIME", "TIMESTAMP", "DATETIME",
    "DATETIME2", "INTERVAL", "VARCHAR", "VARCHAR2", "NVARCHAR", "NVARCHAR2", "CHAR", "NCHAR",
    "CHARACTER", "TEXT", "CLOB", "BLOB", "RAW", "BINARY", "VARBINARY", "BOOLEAN", "BOOL", "BIT",
    "MONEY", "UUID", "JSON", "JSONB", "XML"]

def isTypeName (t : Text) : Bool := typeNames.contains (upperString (trim t))

end Name

/-- The name of an object with the schema it is qualified by. -/
structure QualifiedName where
  schema : Option String
  name : String
  deriving Repr, DecidableEq

namespace QualifiedName

def splitLastDot (t : Text) : Option Text × Text :=
  let last := (t.reverse.takeWhile (· != '.')).reverse
  if last.length < t.length then (some (t.take (t.length - last.length - 1)), last)
  else (none, last)

/-- A name split at its last dot, with the quotes of both halves removed; `none` if there is
nothing behind the dot. -/
def ofText? (t : Text) : Option QualifiedName :=
  match trim t with
  | [] => none
  | c :: r =>
    let (before, last) := splitLastDot (c :: r)
    (Name.stripQuotes? last).map fun name =>
      ⟨(before.bind Name.stripQuotes?).map String.ofList, String.ofList name⟩

def ofChain? (t : Text) : Option QualifiedName := (Name.normalizeChain? t).bind ofText?

/-- The schema and name of an object whose identifiers are given one by one. Blank identifiers do
not count. -/
def ofParts? (parts : List String) : Option QualifiedName :=
  let values := (parts.map (trim ·.toList)).filter (!·.isEmpty)
  match values.getLast? with
  | none => none
  | some last =>
    let before := values.dropLast
    some ⟨if before.isEmpty then none else some (String.ofList (join ['.'] before)),
      String.ofList last⟩

end QualifiedName

end SqlOutline
