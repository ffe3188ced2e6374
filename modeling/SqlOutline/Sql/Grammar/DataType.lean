import SqlOutline.Sql.Grammar.Name

/-!
# Data types

Types in angle brackets may be closed by one token that closes two of them, `>>`.

## Main definitions

* `Half` — whether half of such a token is left over for the type around.
* `dataType` — a type, known by its canonical text.
-/

namespace SqlOutline.Sql.Grammar

open Reader

/-! ## Arguments of types -/

def precision? : Reader String := do
  if (← symbol? "(") then
    let n ← uint
    symbol ")"
    return "(" ++ toString n ++ ")"
  else return ""

def precisionScale? : Reader String := do
  if (← symbol? "(") then
    let n ← uint
    let scale ← if (← symbol? ",") then do pure ("," ++ toString (← uint)) else pure ""
    symbol ")"
    return "(" ++ toString n ++ scale ++ ")"
  else return ""

def characterLength? : Reader String := do
  if (← symbol? "(") then
    let inner ←
      if (← keyword? "MAX") then pure "MAX"
      else do
        let n ← uint
        match (← anyKeyword? ["CHARACTERS", "OCTETS"]) with
        | some unit => pure (toString n ++ " " ++ unit)
        | none => pure (toString n)
    symbol ")"
    return "(" ++ inner ++ ")"
  else return ""

def rawText (w : Word) : String :=
  match w.quote with
  | none => w.value
  | some '[' => "[" ++ w.value ++ "]"
  | some q => String.ofList [q] ++ w.value ++ String.ofList [q]

def modifiersUpTo : Nat → Reader (List String)
  | 0 => fail
  | bound + 1 => do
    match (← next) with
    | some (.word w) => return rawText w :: (← modifiersUpTo bound)
    | some (.number s _) => return s :: (← modifiersUpTo bound)
    | some (.quoted s) => return s :: (← modifiersUpTo bound)
    | some (.symbol s) =>
      if s = "," then modifiersUpTo bound else if s = ")" then return [] else fail
    | _ => fail

def customType : Reader DataType := do
  let name ← objectName
  if (← symbol? "(") then
    let modifiers ← modifiersUpTo (← bound)
    let text := if modifiers.isEmpty then name.text
      else name.text ++ "(" ++ ", ".intercalate modifiers ++ ")"
    return { text, custom := some name }
  else return { text := name.text, custom := some name }

def timeZone? : Reader String := do
  match (← anyKeyword? ["WITH", "WITHOUT"]) with
  | some k =>
    keywords ["TIME", "ZONE"]
    return " " ++ k ++ " TIME ZONE"
  | none => return ""

def stringValues : Reader String := do
  let one : Reader String := do
    match (← next) with
    | some (.quoted s) => return s
    | _ => fail
  let items ← parens (commaSeparated one)
  return "(" ++ ", ".intercalate (items.map (quoteWith '\'' ·)) ++ ")"

def enumValues (d : Dialect) : Reader String := do
  let one : Reader String := do
    let s ← literalString d
    if (← symbol? "=") then return quoteWith '\'' s ++ " = " ++ (← signedNumber d)
    else return quoteWith '\'' s
  let items ← parens (commaSeparated one)
  return "(" ++ ", ".intercalate items ++ ")"

def fineTime (d : Dialect) : Reader String := do
  let n ← uint
  let zone ← if (← symbol? ",") then do pure (", '" ++ (← literalString d) ++ "'") else pure ""
  return toString n ++ zone

/-! ## Types inside types -/

/-- A type, and whether the bracket that closes it is half of a `>>` that closes the type around it
as well. -/
structure Half where
  type : Phrase
  closesOuter : Bool := false

def whole (half : Reader Half) : Reader Phrase := do
  let h ← half
  if h.closesOuter then fail else return h.type

/-- The bracket that closes a type, unless the type inside it has closed it. The result says whether
the bracket closes the type around this one. -/
def closeAngle (closed : Bool) : Reader Bool := do
  if closed then return false
  else if (← symbol? ">") then return false
  else
    symbol ">>"
    return true

def structField (half : Reader Half) : Reader Half := do
  if (← peek).any (·.isWord) && (← peekAt 1).any (·.isWord) then
    let name ← ident
    let h ← half
    return { h with type := (name.text ++ " " : Phrase) ++ h.type }
  else half

/-- Fields of a record type up to the last, at most `bound`. Only the last may close the type around
it. -/
def structFieldsUpTo (half : Reader Half) : Nat → Reader (List Phrase × Bool)
  | 0 => fail
  | bound + 1 => do
    let h ← structField half
    if (← symbol? ",") then
      if h.closesOuter then fail
      let (more, closes) ← structFieldsUpTo half bound
      return (h.type :: more, closes)
    else return ([h.type], h.closesOuter)

/-- The fields of a record type in angle brackets, or none. The result says whether the last bracket
closes the type around this one. -/
def structFields (half : Reader Half) : Reader (List Phrase × Bool) := do
  if (← symbol? "<") then
    let (fields, closes) ← structFieldsUpTo half (← bound)
    return (fields, ← closeAngle closes)
  else return ([], false)

def structText (fields : List Phrase) : Phrase :=
  if fields.isEmpty then "STRUCT" else "STRUCT<" ++ Phrase.list fields ++ ">"

/-! ## Built-in types -/

def integerTypes : List String :=
  ["TINYINT", "INT2", "SMALLINT", "MEDIUMINT", "INT", "INT4", "INT8", "INTEGER", "BIGINT"]

def bareTypes : List String :=
  ["BOOLEAN", "BOOL", "REAL", "FLOAT4", "FLOAT64", "FLOAT8", "INT64", "TINYBLOB", "MEDIUMBLOB",
    "LONGBLOB", "UUID", "DATE", "INTERVAL", "JSON", "JSONB", "REGCLASS", "TEXT", "TINYTEXT",
    "MEDIUMTEXT", "LONGTEXT", "BYTEA", "TRIGGER"]

def mixedTypes : List String :=
  ["Float32", "Int16", "Int32", "Int128", "Int256", "UInt8", "UInt16", "UInt32", "UInt64",
    "UInt128", "UInt256", "Date32"]

def sizedTypes : List String :=
  ["FLOAT", "CLOB", "BINARY", "VARBINARY", "BLOB", "BYTES", "DATETIME", "STRING"]

def exactTypes : List String := ["NUMERIC", "DECIMAL", "DEC", "BIGNUMERIC", "BIGDECIMAL"]

/-- A built-in type made of words and numbers, whose first keyword is given and has been taken;
`none` if the keyword starts no such type. -/
def simpleType? (d : Dialect) (k : String) : Reader (Option String) := do
  if bareTypes.contains k then return some k
  else if let some name := mixedTypes.find? (·.toUpper == k) then return some name
  else if sizedTypes.contains k then return some (k ++ (← precision?))
  else if exactTypes.contains k then return some (k ++ (← precisionScale?))
  else if integerTypes.contains k then
    let size ← precision?
    return some (k ++ size ++ (if (← keyword? "UNSIGNED") then " UNSIGNED" else ""))
  else
    match k with
    | "DOUBLE" => return some (if (← keyword? "PRECISION") then "DOUBLE PRECISION" else "DOUBLE")
    | "VARCHAR" | "NVARCHAR" => return some (k ++ (← characterLength?))
    | "CHARACTER" | "CHAR" =>
      if (← keyword? "VARYING") then return some (k ++ " VARYING" ++ (← characterLength?))
      else if (← keywords? ["LARGE", "OBJECT"]) then
        return some (k ++ " LARGE OBJECT" ++ (← precision?))
      else return some (k ++ (← characterLength?))
    | "TIMESTAMP" | "TIME" =>
      let size ← precision?
      return some (k ++ size ++ (← timeZone?))
    | "TIMESTAMPTZ" | "TIMETZ" => return some (k ++ (← precision?))
    | "DATETIME64" => return some ("DateTime64(" ++ (← parens (fineTime d)) ++ ")")
    | "ENUM" | "ENUM8" | "ENUM16" => return some (k ++ (← enumValues d))
    | "SET" => return some ("SET" ++ (← stringValues))
    | "FIXEDSTRING" => return some ("FixedString(" ++ toString (← parens uint) ++ ")")
    | _ => return none

/-- A type of the most permissive dialect with types inside it, whose first keyword is given and has
been taken; `none` if the keyword starts no such type. -/
def nestingType? (g : Grammar) (half : Reader Half) (k : String) : Reader (Option Half) := do
  match k with
  | "STRUCT" =>
    let (fields, closes) ← structFields half
    return some ⟨structText fields, closes⟩
  | "UNION" =>
    let fields ← parens (commaSeparated do
      let name ← ident
      return (name.text ++ " " : Phrase) ++ (← whole half))
    return some { type := "UNION(" ++ Phrase.list fields ++ ")" }
  | "NULLABLE" => return some { type := "Nullable(" ++ (← parens (whole half)) ++ ")" }
  | "LOWCARDINALITY" => return some { type := "LowCardinality(" ++ (← parens (whole half)) ++ ")" }
  | "MAP" =>
    let (key, value) ← parens do
      let key ← whole half
      symbol ","
      return (key, ← whole half)
    return some { type := "Map(" ++ key ++ ", " ++ value ++ ")" }
  | "NESTED" =>
    return some { type := "Nested(" ++ Phrase.list (← parens (commaSeparated g.column)) ++ ")" }
  | "TUPLE" =>
    let fields ← parens (commaSeparated (structField half))
    return some { type := "Tuple(" ++ Phrase.list (fields.map (·.type)) ++ ")" }
  | _ => return none

def arraySuffix (d : Dialect) (t : DataType) : Nat → Reader DataType
  | 0 => return t
  | bound + 1 => do
    if (← symbol? "[") then
      let size ← if d = .postgresql || d = .plsql then attempt uint else pure none
      symbol "]"
      let suffix : Phrase := "[" ++ size.elim "" toString ++ "]"
      arraySuffix d { toPhrase := t.toPhrase ++ suffix } bound
    else return t

def elementType (g : Grammar) (half : Reader Half) (w : Word) : Reader (DataType × Bool) := do
  let before ← rest
  skip 1
  if w.keyword = "ARRAY" then
    symbol "<"
    let h ← half
    let closes ← closeAngle h.closesOuter
    return ({ toPhrase := "ARRAY<" ++ h.type ++ ">" }, closes)
  else
    match (← simpleType? g.dialect w.keyword) with
    | some text => return ({ text }, false)
    | none =>
      match (← if g.dialect = .plsql then nestingType? g half w.keyword else pure none) with
      | some h => return ({ toPhrase := h.type }, h.closesOuter)
      | none =>
        setRest before
        return (← customType, false)

/-- A data type with at most `bound` types inside each other, and whether it closes the type around
it. -/
def dataTypeUpTo (g : Grammar) : Nat → Reader (DataType × Bool)
  | 0 => fail
  | bound + 1 => do
    let half : Reader Half := do
      let (t, closes) ← dataTypeUpTo g bound
      return ⟨t.toPhrase, closes⟩
    match (← peek) with
    | some (.word w) =>
      let (t, closes) ← elementType g half w
      return (← arraySuffix g.dialect t (← Reader.bound), closes)
    | _ => fail

def halfType (g : Grammar) : Reader Half := do
  let (t, closes) ← dataTypeUpTo g (← bound)
  return ⟨t.toPhrase, closes⟩

/-- A data type. -/
def dataType (g : Grammar) : Reader DataType := do
  let (t, closes) ← dataTypeUpTo g (← bound)
  if closes then fail else return t

end SqlOutline.Sql.Grammar
