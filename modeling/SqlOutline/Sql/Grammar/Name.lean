import SqlOutline.Sql.Grammar.Basic

/-!
# Names and literals

## Main definitions

* `ident`, `objectName`, `value` — the leaves of the grammars.
-/

namespace SqlOutline.Sql.Grammar

open Reader

def ofWord (w : Word) : Ident := ⟨w.value, w.quote⟩

/-- An identifier: a word, also a keyword, or a quoted literal. -/
def ident : Reader Ident := do
  match (← next) with
  | some (.word w) => return ofWord w
  | some (.quoted s) => return ⟨s, some '\''⟩
  | some (.doubleQuoted s) => return ⟨s, some '"'⟩
  | _ => fail

def ident? : Reader (Option Ident) := attempt ident

def objectNameUpTo : Nat → Reader ObjectName
  | 0 => fail
  | bound + 1 => do
    let i ← ident
    if (← symbol? ".") then return i :: (← objectNameUpTo bound) else return [i]

/-- A dotted name. -/
def objectName : Reader ObjectName := do objectNameUpTo (← bound)

def anyIdent : Reader Unit := do
  let _ ← next

/-- Takes what ought to be a dotted name, in at most `bound` parts: a token that is no identifier
ends it, but is taken too. -/
def anyNameUpTo : Nat → Reader Unit
  | 0 => return
  | bound + 1 => do
    match (← next) with
    | some (.word _) | some (.quoted _) | some (.doubleQuoted _) =>
      if (← symbol? ".") then anyNameUpTo bound
    | _ => return

def anyName : Reader Unit := do anyNameUpTo (← bound)

def columnList : Reader (List Ident) := parens (commaSeparated ident)

def columnList? : Reader (List Ident) := do
  if (← peekSymbol "(") then columnList else return []

def columnListOrEmpty? : Reader (List Ident) := do
  if (← peekSymbol "(") then parens (commaSeparatedOrNone ident ")") else return []

/-! ## Literals -/

def uint : Reader Nat := do
  match (← next) with
  | some (.number s _) =>
    match s.toNat? with
    | some n => if s.toList.all Char.isDigit && n < 18446744073709551616 then return n else fail
    | none => fail
  | _ => fail

def literalString (d : Dialect) : Reader String := do
  match (← next) with
  | some (.word w) =>
    if !w.isKeyword then return w.value else fail
  | some (.quoted s) | some (.doubleQuoted s) | some (.unicode s) => return s
  | some (.escaped s) => if d = .postgresql || d = .plsql then return s else fail
  | _ => fail

def escapedChar (c : Char) : String :=
  if c = '\'' then "\\'"
  else if c = '\\' then "\\\\"
  else if c = '\n' then "\\n"
  else if c = '\t' then "\\t"
  else if c = '\r' then "\\r"
  else String.ofList [c]

def unicodeChar (c : Char) : String :=
  let hex (n width : Nat) : String :=
    let digits := Nat.toDigits 16 n |>.map Char.toUpper
    String.ofList (List.replicate (width - digits.length) '0' ++ digits)
  if c = '\'' then "''"
  else if c = '\\' then "\\\\"
  else if c.toNat < 128 then String.ofList [c]
  else if c.toNat < 0x10000 then "\\" ++ hex c.toNat 4
  else "\\+" ++ hex c.toNat 6

def literalText? : Token → Option String
  | .number s long => some (if long then s ++ "L" else s)
  | .quoted s => some (quoteWith '\'' s)
  | .doubleQuoted s => some (quoteWith '"' s)
  | .dollarQuoted s tag =>
    let mark := "$" ++ tag.getD "" ++ "$"
    some (mark ++ s ++ mark)
  | .national s => some ("N'" ++ s ++ "'")
  | .escaped s => some ("E'" ++ String.join (s.toList.map escapedChar) ++ "'")
  | .unicode s => some ("U&'" ++ String.join (s.toList.map unicodeChar) ++ "'")
  | .hex s => some ("X'" ++ s ++ "'")
  | .bytes q s => some ("B" ++ String.ofList [q] ++ s ++ String.ofList [q])
  | .raw q s => some ("R" ++ String.ofList [q] ++ s ++ String.ofList [q])
  | .placeholder s => some s
  | _ => none

def hasBooleans (d : Dialect) : Bool := d != .tsql

/-- A literal or placeholder as it is written. -/
def value (d : Dialect) : Reader String := do
  match (← next) with
  | some (.word w) =>
    if w.quote == some '"' then return quoteWith '"' w.value
    else if w.keyword == "NULL" then return "NULL"
    else if w.keyword == "TRUE" && hasBooleans d then return "true"
    else if w.keyword == "FALSE" && hasBooleans d then return "false"
    else fail
  | some (.symbol s) =>
    if s = ":" || s = "@" then
      match (← next) with
      | some (.word w) => return s ++ w.value
      | some (.number n false) => return s ++ n
      | _ => fail
    else fail
  | some t =>
    match literalText? t with
    | some text => return text
    | none => fail
  | none => fail

def numberValue (d : Dialect) : Reader String := do
  match (← peek) with
  | some (.number _ _) | some (.placeholder _) | some (.symbol _) => value d
  | _ => fail

/-- A number or a placeholder with its sign as it is written. -/
def signedNumber (d : Dialect) : Reader String := do
  if (← symbol? "+") then return "+" ++ (← numberValue d)
  else if (← symbol? "-") then return "-" ++ (← numberValue d)
  else numberValue d

end SqlOutline.Sql.Grammar
