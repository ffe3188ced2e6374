import SqlOutline.Toml.Table

/-!
# Reading TOML

Readers take something from the front of a text and give it with the rest of the text.

## Main definitions

* `readString?`, `readKey?`, `readDocument?` — strings, dotted keys, and whole documents.
-/

namespace SqlOutline.Toml

open Text

/-! ## White space -/

def isInlineBlank (c : Char) : Bool := c == ' ' || c == '\t'

def skipBlanks (t : Text) : Text := t.dropWhile isInlineBlank

def isPrintable (c : Char) : Bool := c == '\t' || 0x20 ≤ c.toNat && c.toNat != 0x7F

def lineBreak? : Text → Option Text
  | '\n' :: t => some t
  | '\r' :: '\n' :: t => some t
  | _ => none

def skipComment (t : Text) : Text :=
  match t with
  | '#' :: t => t.dropWhile isPrintable
  | _ => t

/-- The text behind the end of the line, which may hold a comment. The end of the text ends a line,
too. -/
def lineEnd? (t : Text) : Option Text :=
  match skipComment (skipBlanks t) with
  | [] => some []
  | t => lineBreak? t

/-- A text behind white space, comments and line breaks. At most `bound` line breaks are passed. -/
def skipLines : Nat → Text → Text
  | 0, t => skipBlanks t
  | bound + 1, t =>
    match lineBreak? (skipComment (skipBlanks t)) with
    | some t => skipLines bound t
    | none => skipBlanks t

/-! ## Strings -/

def hexValue? (c : Char) : Option Nat :=
  if c.isDigit then some (c.toNat - 48)
  else if 'a' ≤ c && c ≤ 'f' then some (c.toNat - 87)
  else if 'A' ≤ c && c ≤ 'F' then some (c.toNat - 55)
  else none

def scalar? (digits : Text) : Option Char := do
  let n ← digits.foldlM (fun n c => (hexValue? c).map (n * 16 + ·)) 0
  if n.isValidChar then some (Char.ofNat n) else none

def escaped? : Char → Option Char
  | 'b' => some (Char.ofNat 8)
  | 't' => some '\t'
  | 'n' => some '\n'
  | 'f' => some (Char.ofNat 12)
  | 'r' => some '\r'
  | '"' => some '"'
  | '\\' => some '\\'
  | _ => none

def readEscape? : Text → Option (Char × Text)
  | 'u' :: a :: b :: c :: d :: t => (scalar? [a, b, c, d]).map (·, t)
  | 'U' :: a :: b :: c :: d :: e :: f :: g :: h :: t =>
    (scalar? [a, b, c, d, e, f, g, h]).map (·, t)
  | e :: t => (escaped? e).map (·, t)
  | [] => none

/-- A string in double quotes on one line, behind the opening quote. At most `bound` characters are
read. -/
def readBasic? : Nat → Text → Option (Text × Text)
  | bound + 1, c :: t =>
    if c == '"' then some ([], t)
    else if c == '\\' then do
      let (e, t) ← readEscape? t
      let (s, t) ← readBasic? bound t
      return (e :: s, t)
    else if isPrintable c then (readBasic? bound t).map fun (s, t) => (c :: s, t)
    else none
  | _, _ => none

def readLiteral? : Text → Option (Text × Text)
  | [] => none
  | c :: t =>
    if c == '\'' then some ([], t)
    else if isPrintable c then (readLiteral? t).map fun (s, t) => (c :: s, t)
    else none

/-- The quotes that end a string over several lines: three that close it, before which up to two
more belong to the string. -/
def closing? (quote : Char) (t : Text) : Option (Text × Text) :=
  let quotes := (t.takeWhile (· == quote)).length
  if quotes < 3 then none
  else
    let inside := min (quotes - 3) 2
    some (List.replicate inside quote, t.drop (inside + 3))

def continuation? (t : Text) : Option Text := do
  let t ← lineBreak? (skipBlanks t)
  return t.dropWhile fun c => isInlineBlank c || c == '\n' || c == '\r'

/-- A string over several lines behind its opening quotes. Backslashes escape only in double quotes.
At most `bound` characters are read. -/
def readMultiline? (quote : Char) : Nat → Text → Option (Text × Text)
  | 0, _ => none
  | bound + 1, t =>
    match closing? quote t with
    | some r => some r
    | none =>
      match t with
      | [] => none
      | c :: t =>
        if c == '\\' && quote == '"' then
          match continuation? t with
          | some t => readMultiline? quote bound t
          | none => do
            let (e, t) ← readEscape? t
            let (s, t) ← readMultiline? quote bound t
            return (e :: s, t)
        else
          match lineBreak? (c :: t) with
          | some t => (readMultiline? quote bound t).map fun (s, t) => ('\n' :: s, t)
          | none =>
            if isPrintable c then
              (readMultiline? quote bound t).map fun (s, t) => (c :: s, t)
            else none

/-- A string over several lines behind its opening quotes. A line break right behind them does not
count. -/
def readBlock? (quote : Char) (t : Text) : Option (Text × Text) :=
  readMultiline? quote (t.length + 1) ((lineBreak? t).getD t)

/-- A string of any kind. -/
def readString? : Text → Option (Text × Text)
  | '"' :: '"' :: '"' :: t => readBlock? '"' t
  | '\'' :: '\'' :: '\'' :: t => readBlock? '\'' t
  | '"' :: t => readBasic? (t.length + 1) t
  | '\'' :: t => readLiteral? t
  | _ => none

/-! ## Keys -/

def isBareKey (c : Char) : Bool := c.isAlphanum || c == '_' || c == '-'

def readSimpleKey? (t : Text) : Option (Text × Text) :=
  match t with
  | '"' :: t => readBasic? (t.length + 1) t
  | '\'' :: t => readLiteral? t
  | _ =>
    let key := t.takeWhile isBareKey
    if key.isEmpty then none else some (key, t.dropWhile isBareKey)

/-- Keys with dots between them, and the rest behind white space. At most `bound` keys are read. -/
def readKeys? : Nat → Text → Option (List Text × Text)
  | 0, _ => none
  | bound + 1, t => do
    let (key, t) ← readSimpleKey? (skipBlanks t)
    match skipBlanks t with
    | '.' :: t =>
      let (keys, t) ← readKeys? bound t
      return (key :: keys, t)
    | t => return ([key], t)

/-- A dotted key as a path and a last key, and the rest behind white space. -/
def readKey? (t : Text) : Option (List Text × Text × Text) := do
  let (keys, rest) ← readKeys? (t.length + 1) t
  return (keys.dropLast, ← keys.getLast?, rest)

/-! ## Numbers and times -/

def digitsOf? (isDigit : Char → Bool) (t : Text) : Option Text :=
  if (splitOnChar (· == '_') t).all fun group => !group.isEmpty && group.all isDigit then
    some (t.filter (· != '_'))
  else none

def unsigned : Text → Bool × Text
  | '-' :: t => (true, t)
  | '+' :: t => (false, t)
  | t => (false, t)

def ofDigits (base : Nat) (digits : Text) : Nat :=
  digits.foldl (fun n c => n * base + (hexValue? c).getD 0) 0

def decimal? (t : Text) : Option Nat := do
  let digits ← digitsOf? Char.isDigit t
  if digits.head? == some '0' && digits.length != 1 then none
  return ofDigits 10 digits

def integer? (t : Text) : Option Int := do
  let n : Int ←
    match t with
    | '0' :: 'x' :: t =>
      (digitsOf? (fun c => (hexValue? c).isSome) t).map fun d => (ofDigits 16 d : Int)
    | '0' :: 'o' :: t =>
      (digitsOf? (fun c => '0' ≤ c && c ≤ '7') t).map fun d => (ofDigits 8 d : Int)
    | '0' :: 'b' :: t =>
      (digitsOf? (fun c => c == '0' || c == '1') t).map fun d => (ofDigits 2 d : Int)
    | t =>
      let (minus, digits) := unsigned t
      (decimal? digits).map fun n => if minus then -(n : Int) else (n : Int)
  if -0x8000000000000000 ≤ n && n < 0x8000000000000000 then some n else none

def isFloat (t : Text) : Bool :=
  let (_, body) := unsigned t
  let mantissa := body.takeWhile fun c => c != 'e' && c != 'E'
  let exponent := body.drop mantissa.length
  let whole := mantissa.takeWhile (· != '.')
  let fraction := mantissa.drop whole.length
  body == "inf".toList || body == "nan".toList
    || (decimal? whole).isSome
      && (fraction.isEmpty || (digitsOf? Char.isDigit (fraction.drop 1)).isSome)
      && (exponent.isEmpty || (digitsOf? Char.isDigit (unsigned (exponent.drop 1)).2).isSome)
      && !(fraction.isEmpty && exponent.isEmpty)

def fixedDigits? (n : Nat) (t : Text) : Option (Nat × Text) :=
  let digits := t.take n
  if digits.length = n && digits.all Char.isDigit then some (ofDigits 10 digits, t.drop n) else none

def monthLength (year month : Nat) : Nat :=
  if month = 2 then
    if year % 4 = 0 && (year % 100 != 0 || year % 400 = 0) then 29 else 28
  else if [4, 6, 9, 11].contains month then 30
  else 31

def behindDate? (t : Text) : Option Text := do
  let (year, t) ← fixedDigits? 4 t
  let ('-' :: t) := t | none
  let (month, t) ← fixedDigits? 2 t
  let ('-' :: t) := t | none
  let (day, t) ← fixedDigits? 2 t
  if 1 ≤ month && month ≤ 12 && 1 ≤ day && day ≤ monthLength year month then some t else none

def behindMinutes? (t : Text) : Option Text := do
  let (hour, t) ← fixedDigits? 2 t
  let (':' :: t) := t | none
  let (minute, t) ← fixedDigits? 2 t
  if hour ≤ 23 && minute ≤ 59 then some t else none

def behindTime? (t : Text) : Option Text := do
  let t ← behindMinutes? t
  let (':' :: t) := t | none
  let (second, t) ← fixedDigits? 2 t
  if second > 60 then none
  match t with
  | '.' :: t =>
    let digits := t.takeWhile Char.isDigit
    if digits.isEmpty then none else some (t.drop digits.length)
  | t => some t

def isZone (t : Text) : Bool :=
  match t with
  | [] => true
  | c :: t =>
    if c == 'Z' || c == 'z' then t.isEmpty
    else (c == '+' || c == '-') && behindMinutes? t == some []

def isTime (t : Text) : Bool :=
  match behindDate? t with
  | some [] => true
  | some (c :: t) => (c == 'T' || c == 't' || c == ' ') && (behindTime? t).any isZone
  | none => behindTime? t == some []

def isScalarChar (c : Char) : Bool := c.isAlphanum || ['+', '-', '_', '.', ':'].contains c

def scalarValue? (t : Text) : Option Value :=
  if t == "true".toList then some (.boolean true)
  else if t == "false".toList then some (.boolean false)
  else
    match integer? t with
    | some n => some (.integer n)
    | none => if isFloat t || isTime t then some .other else none

/-- A value without quotes or brackets. A date and a time can have a space between them. -/
def readScalar? (t : Text) : Option (Value × Text) :=
  let word := t.takeWhile isScalarChar
  let rest := t.dropWhile isScalarChar
  match rest with
  | ' ' :: c :: _ =>
    if behindDate? word == some [] && c.isDigit then
      let time := (rest.drop 1).takeWhile isScalarChar
      (scalarValue? (word ++ ' ' :: time)).map (·, rest.drop (time.length + 1))
    else (scalarValue? word).map (·, rest)
  | _ => (scalarValue? word).map (·, rest)

/-! ## Arrays and tables in line -/

mutual

/-- A value. The nesting of arrays and tables is at most `bound`, as is their length. -/
def readValue? : Nat → Text → Option (Value × Text)
  | 0, _ => none
  | bound + 1, t =>
    match t with
    | '[' :: t => (readItems? bound t).map fun (items, t) => (.array items, t)
    | '\x7b' :: t =>
      match skipBlanks t with
      | '\x7d' :: t => some (.other, t)
      | t => (readFields? bound [] t).map (.other, ·)
    | t =>
      match readString? t with
      | some (s, t) => some (.text s, t)
      | none => readScalar? t

def readItems? : Nat → Text → Option (List Value × Text)
  | 0, _ => none
  | bound + 1, t => do
    match skipLines t.length t with
    | ']' :: t => some ([], t)
    | t =>
      let (item, t) ← readValue? bound t
      match skipLines t.length t with
      | ']' :: t => some ([item], t)
      | ',' :: t =>
        let (items, t) ← readItems? bound t
        some (item :: items, t)
      | _ => none

def readFields? : Nat → Entries → Text → Option Text
  | 0, _, _ => none
  | bound + 1, e, t => do
    let (path, key, t) ← readKey? t
    let ('=' :: t) := t | none
    let (v, t) ← readValue? bound (skipBlanks t)
    let e ← e.define? path key v
    match skipBlanks t with
    | '\x7d' :: t => some t
    | ',' :: t => readFields? bound e t
    | _ => none

end

/-! ## Documents -/

/-- What has been read of a document: its entries, and the path that the latest header opens. -/
structure DocumentState where
  entries : Entries := []
  header : List Text := []

def readHeader? (s : DocumentState) : Text → Option (DocumentState × Text)
  | '[' :: '[' :: t => do
    let (path, key, t) ← readKey? t
    let (']' :: ']' :: t) := t | none
    return (⟨← s.entries.openNext? path key, path ++ [key]⟩, t)
  | '[' :: t => do
    let (path, key, t) ← readKey? t
    let (']' :: t) := t | none
    return (⟨← s.entries.open? path key, path ++ [key]⟩, t)
  | _ => none

def readField? (s : DocumentState) (t : Text) : Option (DocumentState × Text) := do
  let (path, key, t) ← readKey? t
  let ('=' :: t) := t | none
  let (v, t) ← readValue? (t.length + 1) (skipBlanks t)
  return ({ s with entries := ← s.entries.defineBelow? s.header path key v }, t)

def readLines? : Nat → DocumentState → Text → Option Entries
  | 0, _, _ => none
  | bound + 1, s, t =>
    match skipBlanks t with
    | [] => some s.entries
    | c :: rest => do
      let (s, t) ←
        if c == '[' then readHeader? s (c :: rest)
        else if c == '#' || c == '\n' || c == '\r' then some (s, c :: rest)
        else readField? s (c :: rest)
      readLines? bound s (← lineEnd? t)

/-- A document, as the entries of its outermost table. A mark of the byte order at its start does
not count. -/
def readDocument? (t : Text) : Option Entries :=
  let t := if t.head? == some (Char.ofNat 0xFEFF) then t.drop 1 else t
  readLines? (t.length + 2) {} t

end SqlOutline.Toml
