import SqlOutline.Body.Analyze
import SqlOutline.Lexeme.Group
import SqlOutline.Model.Operation
import SqlOutline.Pattern.Basic

/-!
# Definitions read from lexemes

A reader looks at the words that matter to it and passes over the rest.

## Main definitions

* `readTable?`, `readIndex?`, `readView?`, `readDrop?` — what no grammar accepts.
* `readDefinition?` — the operations of a statement, from its lexemes.
-/

namespace SqlOutline

open Text Pattern

/-! ## Removal -/

def dropHeader : Pattern :=
  all [.atStart, blanks0, lit "DROP", blanks,
    .group 1 (anyOf [lit "TABLE", phrase ["MATERIALIZED", "VIEW"], lit "VIEW", lit "INDEX",
      lit "PROCEDURE", lit "PROC", lit "FUNCTION", lit "TRIGGER"]),
    blanks, opt (.group 2 (all [phrase ["IF", "EXISTS"], blanks]))]

/-- Names with commas between them, each perhaps with arguments in parentheses behind it. At most
`bound` names are read. -/
def droppedNames (source : Text) : Nat → List Lexeme → List QualifiedName
  | 0, _ => []
  | bound + 1, ls =>
    match readChain? source ls with
    | none => []
    | some (chain, rest) =>
      let rest := if rest.head?.any (·.isSymbol '(') then (bracketed rest).2 else rest
      let more := match rest with
        | l :: ls => if l.isSymbol ',' then droppedNames source bound ls else []
        | [] => []
      (QualifiedName.ofChain? chain).toList ++ more

/-- The removal of one or more objects. -/
def readDrop? (t : Text) : Option (List Operation) := do
  let m ← dropHeader.find? t
  let kind ← DropKind.ofKeywords? (← m.text? 1)
  let ifExists := (m.text? 2).isSome
  let rest := m.stop.rest
  let lexemes := tokenize rest
  match droppedNames rest lexemes.length lexemes with
  | [] => none
  | names => some (names.map fun name => .drop ⟨kind, name, ifExists⟩)

/-! ## Indexes -/

def indexHeader : Pattern :=
  all [.atStart, blanks0, lit "CREATE", blanks, opt (.group 1 (all [lit "UNIQUE", blanks])),
    opt (all [anyOf [lit "CLUSTERED", lit "NONCLUSTERED", lit "BITMAP", lit "FULLTEXT",
      lit "SPATIAL"], blanks]),
    lit "INDEX", blanks, opt (all [lit "CONCURRENTLY", blanks]),
    opt (all [phrase ["IF", "NOT", "EXISTS"], blanks]),
    .group 2 (some1 (.one (!isBlank ·))), blanks, lit "ON", blanks,
    opt (all [lit "ONLY", blanks])]

/-- A column of an index without its place in the order: a name, or an expression as it is
written. -/
def indexedColumn? (source : Text) (item : List Lexeme) : Option String :=
  match item.takeWhile fun l => !l.isAnyWord ["ASC", "DESC", "NULLS", "COLLATE"] with
  | [single] => single.plain?
  | item => spanType? source item

def indexedColumns (source : Text) (ls : List Lexeme) : List String :=
  let fromParen := ls.dropWhile fun l => !l.isSymbol '('
  if (matchingParen? fromParen).isSome then
    (splitTopLevel (bracketed fromParen).1).filterMap (indexedColumn? source)
  else []

/-- An index. -/
def readIndex? (t : Text) : Option Index := do
  let m ← indexHeader.find? t
  let name := (QualifiedName.ofChain? (← m.text? 2)).map (·.name)
  let rest := m.stop.rest
  let (table, behind) ← readName? rest (tokenize rest)
  return ⟨name, table, (m.text? 1).isSome, indexedColumns rest behind⟩

/-! ## Views -/

def viewHeader : Pattern :=
  let word := some1 (.one isWordChar)
  all [.atStart, blanks0, .group 1 (anyOf [lit "CREATE", lit "ALTER"]), blanks,
    opt (.group 2 (all [lit "OR", blanks, anyOf [lit "REPLACE", lit "ALTER"], blanks])),
    .many true (all [anyOf [lit "FORCE", lit "NOFORCE", lit "EDITIONABLE", lit "NONEDITIONABLE",
      lit "TEMP", lit "TEMPORARY", lit "MATERIALIZED"], blanks]),
    opt (all [lit "ALGORITHM", blanks0, char '=', blanks0, word, blanks]),
    opt (all [lit "DEFINER", blanks0, char '=', blanks0, some1 (.one (!isBlank ·)), blanks]),
    opt (all [phrase ["SQL", "SECURITY"], blanks, word, blanks]),
    lit "VIEW", blanks, opt (all [phrase ["IF", "NOT", "EXISTS"], blanks])]

/-- A view. What its query reads is found as in the body of a routine. -/
def readView? (t : Text) (file : Option Dialect) : Option Operation := do
  let m ← viewHeader.find? t
  let alters := eqIgnoreCase (← m.text? 1) "ALTER".toList
  let rest := m.stop.rest
  let (name, behind) ← readName? rest (tokenize rest)
  let relations := match behind.find? (·.isWord "AS") with
    | some l => (bodyUsage (file.getD .postgresql) (dropBytes l.stop rest)).relations
    | none => {}
  return if alters then .alterView ⟨name, relations⟩
    else .createView (m.text? 2).isSome ⟨name, relations⟩

/-! ## Columns and keys -/

def columnTailWords : List String :=
  ["NOT", "NULL", "PRIMARY", "UNIQUE", "REFERENCES", "DEFAULT", "CONSTRAINT", "CHECK",
    "IDENTITY", "AUTO_INCREMENT", "AUTOINCREMENT", "GENERATED", "COLLATE", "COMMENT", "ON",
    "ENCODE", "SPARSE", "ROWGUIDCOL", "FILESTREAM", "AS", "WITH", "CHARACTER", "CHARSET"]

def constraintWords : List String :=
  ["CONSTRAINT", "PRIMARY", "FOREIGN", "UNIQUE", "KEY", "INDEX", "CHECK", "FULLTEXT",
    "SPATIAL", "PERIOD", "EXCLUDE", "LIKE"]

def isTableConstraint (item : List Lexeme) : Bool := item.head?.any (·.isAnyWord constraintWords)

def namesInParens (ls : List Lexeme) : List String :=
  let fromParen := ls.dropWhile fun l => !l.isSymbol '('
  let names := (bracketed fromParen).1.filter fun l => l.isName && !l.isAnyWord ["ASC", "DESC"]
  names.filterMap Lexeme.plain?

def actionWords? : List Lexeme → Option String
  | [] => none
  | first :: rest =>
    let words := first :: if first.isAnyWord ["SET", "NO"] then rest.take 1 else []
    some (" ".intercalate (words.map (·.upper)))

def withActions (key : ForeignKey) : List Lexeme → ForeignKey
  | on :: event :: rest =>
    let key :=
      if !on.isWord "ON" then key
      else if event.isWord "DELETE" then { key with onDelete := actionWords? rest }
      else if event.isWord "UPDATE" then { key with onUpdate := actionWords? rest }
      else key
    withActions key (event :: rest)
  | _ => key

def readReferral? (source : Text) (ls : List Lexeme) : Option ForeignKey := do
  let (chain, rest) ← readChain? source ls
  let table ← Name.normalizeChain? chain
  let columns := if rest.head?.any (·.isSymbol '(') then namesInParens rest else []
  return withActions
    { referencedTable := String.ofList table, referencedColumns := columns } rest

def readColumnTail (source : Text) (column : Column) (key : Option ForeignKey) :
    List Lexeme → Column × Option ForeignKey
  | [] => (column, key)
  | l :: ls =>
    let isNext (word : String) : Bool := ls.head?.any (·.isWord word)
    if l.isWord "NOT" && isNext "NULL" then readColumnTail source column.forbidNull key ls
    else if l.isWord "UNIQUE" then readColumnTail source (column.addLabel .unique) key ls
    else if l.isWord "PRIMARY" && isNext "KEY" then
      readColumnTail source (column.addLabel .primaryKey) key ls
    else if l.isWord "REFERENCES" then
      let key := (readReferral? source ls).map fun k => { k with columns := [column.name] }
      readColumnTail source (column.addLabel .foreignKey) key ls
    else readColumnTail source column key ls

def readColumn? (source : Text) : List Lexeme → Option (Column × Option ForeignKey)
  | [] => none
  | first :: rest => do
    if !first.isName then none
    let name ← first.plain?
    let isTail (l : Lexeme) : Bool := l.isAnyWord columnTailWords
    let type := spanType? source (rest.takeWhile (!isTail ·))
    return readColumnTail source { name, dataType := type } none (rest.dropWhile (!isTail ·))

def constraintBody (item : List Lexeme) : List Lexeme :=
  if item.head?.any (·.isWord "CONSTRAINT") then item.drop 2 else item

def readForeignKey (source : Text) (item : List Lexeme) (columns : List String) (table : Table) :
    Table :=
  match item.dropWhile fun l => !l.isWord "REFERENCES" with
  | [] => table
  | _ :: behind =>
    match readReferral? source behind with
    | some key =>
      let named := item.head?.any (·.isWord "CONSTRAINT")
      let name := if named then item[1]?.bind (·.plain?) else none
      table.addForeignKey { key with name, columns }
    | none => columns.foldl (·.labelColumn .foreignKey ·) table

def readConstraint (source : Text) (item : List Lexeme) (table : Table) : Table :=
  match constraintBody item with
  | [] => table
  | head :: body =>
    let columns := namesInParens (head :: body)
    if head.isWord "PRIMARY" then table.addPrimaryKey columns
    else if head.isWord "FOREIGN" then readForeignKey source item columns table
    else if head.isWord "UNIQUE" then table.addUnique columns
    else table

def readItem (source : Text) (table : Table) (item : List Lexeme) : Table :=
  if isTableConstraint item then readConstraint source item table
  else
    match readColumn? source item with
    | some (column, key) => table.addColumn column key
    | none => table

/-! ## Tables -/

/-- A table. One that is made from a query has no columns. -/
def readTable? (source : Text) (ls : List Lexeme) : Option Table := do
  let behind ← behindWord? "TABLE" 8 ls
  let ifNotExists := startsWithWords ["IF", "NOT", "EXISTS"] behind
  let (name, rest) ← readName? source (if ifNotExists then behind.drop 3 else behind)
  let table : Table := { name, ifNotExists }
  if rest.head?.any (·.isSymbol '(') then
    return (splitTopLevel (bracketed rest).1).foldl (readItem source) table
  else return table

def addedColumn? (source : Text) (item : List Lexeme) : Option Column := do
  match item.dropWhile fun l => !l.isWord "ADD" with
  | [] => none
  | _ :: behind =>
    let behind := if behind.head?.any (·.isWord "COLUMN") then behind.drop 1 else behind
    let behind := if behind.head?.any (·.isWord "IF") then behind.drop 3 else behind
    if isTableConstraint behind then none
    return (← readColumn? source behind).1

/-- The types of columns as they are spelled in the definition or change of a table, with the names
of the columns. -/
def spelledTypes (source : Text) : List (String × String) :=
  let lexemes := tokenize source
  let columns :=
    if lexemes.head?.any (·.isWord "CREATE") then
      ((readTable? source lexemes).map (·.columns)).getD []
    else (splitTopLevel lexemes).filterMap (addedColumn? source)
  columns.filterMap fun c => c.dataType.map fun type => (c.name, type)

/-! ## All kinds -/

/-- A definition of any kind that is read from lexemes. -/
def readDefinition? (t : Text) (file : Option Dialect) : Option (List Operation) := do
  let lexemes := tokenize t
  let first ← lexemes.head?
  if first.isWord "DROP" then readDrop? t
  else
    let object ← ((lexemes.drop 1).take 12).find? (·.isAnyWord ["TABLE", "VIEW", "INDEX"])
    if object.isWord "INDEX" then (readIndex? t).map fun i => [.createIndex i]
    else if object.isWord "VIEW" then (readView? t file).map ([·])
    else if first.isWord "CREATE" then (readTable? t lexemes).map fun table => [.createTable table]
    else none

end SqlOutline
