import SqlOutline.Sql.Token

/-!
# Parsed statements

Definitions and removals are kept in full, of queries and expressions their text and uses.

## Main definitions

* `Phrase` — a canonical text, and what it uses in the order of a walk from the root.
* `StatementTree` — what the grammars make of a statement.
-/

namespace SqlOutline.Sql

/-! ## Names -/

/-- An identifier, with the opening quote around it. -/
structure Ident where
  value : String
  quote : Option Char := none
  deriving DecidableEq

abbrev ObjectName := List Ident

/-- A text with every quote in it doubled. A pair of quotes stands for itself, and so does a quote
behind a backslash. `last` is the character before the text, and `paired` says that a quote before
it awaits its second. -/
def doubleQuotes (quote : Char) (paired : Bool) (last : Char) : List Char → List Char
  | [] => []
  | c :: t =>
    if c = quote then
      if paired then doubleQuotes quote false c t
      else if last = '\\' then c :: doubleQuotes quote false last t
      else c :: c :: doubleQuotes quote true c t
    else c :: doubleQuotes quote false c t

def quoteWith (quote : Char) (s : String) : String :=
  String.ofList (quote :: doubleQuotes quote false (Char.ofNat 0) s.toList ++ [quote])

namespace Ident

def text (i : Ident) : String :=
  match i.quote with
  | none => i.value
  | some '[' => "[" ++ i.value ++ "]"
  | some q => quoteWith q i.value

end Ident

def ObjectName.text (n : ObjectName) : String := ".".intercalate (n.map Ident.text)

/-! ## Uses and phrases -/

/-- Something that a statement uses. -/
inductive Use where
  | relation (name : ObjectName)
  | function (name : ObjectName)
  /-- A function in place of a table. -/
  | tableFunction (name : ObjectName)
  /-- A common table expression is defined. -/
  | cte (name : String)
  /-- A procedure is called. -/
  | call (name : ObjectName)
  /-- `EXECUTE` is applied to a name. -/
  | execute (name : ObjectName)
  deriving DecidableEq

/-- A piece of SQL: its canonical text and its uses in the order in which they are met. -/
structure Phrase where
  text : String := ""
  uses : List Use := []
  deriving DecidableEq

namespace Phrase

instance : Append Phrase := ⟨fun a b => ⟨a.text ++ b.text, a.uses ++ b.uses⟩⟩

instance : Coe String Phrase := ⟨fun s => ⟨s, []⟩⟩

def join (separator : String) : List Phrase → Phrase
  | [] => {}
  | [p] => p
  | p :: ps => p ++ (separator : Phrase) ++ join separator ps

def list (ps : List Phrase) : Phrase := join ", " ps

def behind (before : String) (p : Phrase) : Phrase := (before : Phrase) ++ p

def optional (before : String) : Option Phrase → Phrase
  | some p => (before : Phrase) ++ p
  | none => {}

end Phrase

/-- What can be told of an expression beyond its text. -/
inductive Shape where
  | ident (i : Ident)
  | compound (parts : List Ident)
  /-- A star, qualified or not. -/
  | wildcard
  | subquery
  /-- An equation with an identifier on its left. -/
  | assignment (target : Ident) (value : Phrase)
  | other
  deriving DecidableEq

/-- An expression. -/
structure Expr extends Phrase where
  shape : Shape := .other
  deriving DecidableEq

def Phrase.expr (p : Phrase) : Expr := { p with }

def Expr.ofText (s : String) : Expr := { text := s }

/-! ## Data types -/

/-- A data type: its canonical text and, if it is no built-in type, its name. The columns inside a
type may use something. -/
structure DataType extends Phrase where
  custom : Option ObjectName := none
  deriving DecidableEq

/-! ## Definitions -/

/-- The action of a foreign key when the row it refers to changes. -/
inductive ReferentialAction where
  | restrict
  | cascade
  | setNull
  | noAction
  | setDefault
  deriving DecidableEq

def ReferentialAction.text : ReferentialAction → String
  | .restrict => "RESTRICT"
  | .cascade => "CASCADE"
  | .setNull => "SET NULL"
  | .noAction => "NO ACTION"
  | .setDefault => "SET DEFAULT"

/-- What a foreign key refers to. -/
structure Referral where
  table : ObjectName
  columns : List Ident
  onDelete : Option ReferentialAction
  onUpdate : Option ReferentialAction
  deriving DecidableEq

/-- An option of a column. -/
inductive ColumnOption where
  | notNull
  | unique
  | primaryKey
  | references (target : Referral)
  | other
  deriving DecidableEq

/-- The definition of a column. An option may carry the name of a constraint. -/
structure ColumnDef where
  name : Ident
  dataType : DataType
  options : List (Option Ident × ColumnOption)
  deriving DecidableEq

/-- A constraint of a table. -/
inductive TableConstraint where
  | primaryKey (columns : List Ident)
  | unique (columns : List Ident)
  | foreignKey (name : Option Ident) (columns : List Ident) (target : Referral)
  | other
  deriving DecidableEq

/-- The definition of a table. -/
structure TableDef where
  name : ObjectName
  ifNotExists : Bool
  columns : List ColumnDef
  constraints : List TableConstraint
  deriving DecidableEq

/-- A change of a table. A constraint that is added is known by its canonical text. -/
inductive TableChange where
  | addColumn (column : ColumnDef)
  | dropColumn (name : Ident)
  | addConstraint (text : String)
  | dropConstraint (name : Ident)
  | dropPrimaryKey
  | other
  deriving DecidableEq

/-- The definition of an index. -/
structure IndexDef where
  name : Option ObjectName
  table : ObjectName
  unique : Bool
  columns : List Expr
  deriving DecidableEq

/-- A parameter of a function. -/
structure FunctionParameter where
  mode : Option String
  name : Option Ident
  dataType : DataType
  default : Option Phrase
  deriving DecidableEq

/-- The definition of a function. -/
structure FunctionDef where
  orReplace : Bool
  name : ObjectName
  parameters : List FunctionParameter
  returns : Option DataType
  deriving DecidableEq

/-- The kinds of objects that a statement can remove. -/
inductive Removal where
  | object (kind : String)
  | function
  | procedure
  | trigger
  deriving DecidableEq

/-- The kinds of statements. -/
inductive StatementTree where
  | createTable (table : TableDef)
  | alterTable (name : ObjectName) (changes : List TableChange)
  | createView (orReplace : Bool) (name : ObjectName) (query : Phrase)
  | alterView (name : ObjectName) (query : Phrase)
  | createIndex (index : IndexDef)
  | drop (removal : Removal) (ifExists : Bool) (names : List ObjectName)
  | createFunction (function : FunctionDef)
  /-- An explanation of a statement or a table. -/
  | explanation
  | other
  deriving DecidableEq

/-- A statement and what it uses. -/
structure Statement where
  tree : StatementTree := .other
  uses : List Use := []
  deriving DecidableEq

end SqlOutline.Sql
