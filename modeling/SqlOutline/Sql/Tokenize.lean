import SqlOutline.Dialect.Basic
import SqlOutline.Sql.Token
import SqlOutline.Text.Blank
import SqlOutline.Text.Digits

/-!
# Tokenizing for the grammars

Unlike scanning, tokenizing fails on what is not closed, and on an escape that stands for no
character. The functions on literals take the text behind the opening quote and give the content
with the number of characters up to and including the closing quote.

## Main definitions

* `tokens?` — the tokens of a text in a dialect.
-/

namespace SqlOutline.Sql

open Text

namespace Tokenize

/-! ## Character classes of the dialects -/

def isIdentStart (d : Dialect) (c : Char) : Bool :=
  match d with
  | .postgresql => isLetter c || c == '_'
  | .mysql =>
    isLetter c || c == '_' || c == '$' || c == '@' || (0x80 ≤ c.toNat && c.toNat ≤ 0xFFFF)
  | .tsql | .plsql => isLetter c || c == '_' || c == '#' || c == '@'

def isIdentPart (d : Dialect) (c : Char) : Bool :=
  isIdentStart d c || isAsciiDigit c || c == '$'

def isIdentQuote (d : Dialect) (c : Char) : Bool :=
  match d with
  | .postgresql => c == '"'
  | .mysql => c == '`'
  | .tsql => c == '"' || c == '['
  | .plsql => c == '"' || c == '`'

def isOperatorPart (d : Dialect) (c : Char) : Bool :=
  d == .postgresql && "+-*/<>=~!@#%^&|`?".toList.contains c

/-! ## Literals -/

def backslashed (c : Char) : Char :=
  if c = '0' then Char.ofNat 0
  else if c = 'a' then Char.ofNat 7
  else if c = 'b' then Char.ofNat 8
  else if c = 'f' then Char.ofNat 12
  else if c = 'n' then '\n'
  else if c = 'r' then '\r'
  else if c = 't' then '\t'
  else if c = 'Z' then Char.ofNat 26
  else c

/-- A literal in which a doubled quote stands for one, and a backslash escapes the character behind
it if `escapes` is set. -/
def quotedBody? (quote : Char) (escapes : Bool) : Text → Option (Text × Nat)
  | [] => none
  | c :: t =>
    if c = quote then
      match t with
      | d :: u =>
        if d = quote then (quotedBody? quote escapes u).map fun (s, n) => (quote :: s, n + 2)
        else some ([], 1)
      | [] => some ([], 1)
    else if escapes && c = '\\' then
      match t with
      | d :: u => (quotedBody? quote escapes u).map fun (s, n) => (backslashed d :: s, n + 2)
      | [] => none
    else (quotedBody? quote escapes t).map fun (s, n) => (c :: s, n + 1)

/-- A literal without escapes, in one quote or in three on either side; two quotes in a row are an
empty one. Of three quotes, two are kept with the content. -/
def rawBody? (quote : Char) (t : Text) : Option (Text × Nat) :=
  if t.take 2 == [quote, quote] then
    (beforeSub? [quote, quote, quote] (t.drop 2)).map fun s =>
      (quote :: quote :: s ++ [quote, quote], s.length + 5)
  else if t.head? == some quote then some ([], 1)
  else quotedBody? quote false t

def digitValue? (c : Char) : Option Nat :=
  if isAsciiDigit c then some (c.toNat - 48)
  else if 'a' ≤ c && c ≤ 'f' then some (c.toNat - 87)
  else if 'A' ≤ c && c ≤ 'F' then some (c.toNat - 55)
  else none

def isDigitIn (base : Nat) (c : Char) : Bool := (digitValue? c).any (· < base)

def numberIn (base : Nat) (digits : Text) : Nat :=
  digits.foldl (fun n c => n * base + (digitValue? c).getD 0) 0

def charOf? (n : Nat) : Option Char :=
  if n < 0xD800 || (0xDFFF < n && n < 0x110000) then some (Char.ofNat n) else none

def wideEscape? (width : Nat) (t : Text) : Option (Char × Nat) :=
  let digits := t.take width
  if digits.length = width && digits.all (isDigitIn 16) then
    (charOf? (numberIn 16 digits)).map (·, width)
  else none

def signedEscape? (width : Nat) (t : Text) : Option (Char × Nat) :=
  if t.head? == some '+' then (wideEscape? (width - 1) (t.drop 1)).map fun (x, n) => (x, n + 1)
  else wideEscape? width t

def asciiEscape? (base : Nat) (digits : Text) : Option Char :=
  let n := numberIn base digits % 256
  if n ≤ 127 then some (Char.ofNat n) else none

/-- The character that the text behind a backslash stands for in a literal introduced by `E`, and
the number of characters that spell it. The null character is not allowed. -/
def escape? (c : Char) (t : Text) : Option (Char × Nat) :=
  let found : Option (Char × Nat) :=
    if c = 'b' then some (Char.ofNat 8, 1)
    else if c = 'f' then some (Char.ofNat 12, 1)
    else if c = 'n' then some ('\n', 1)
    else if c = 'r' then some ('\r', 1)
    else if c = 't' then some ('\t', 1)
    else if c = 'u' then (signedEscape? 4 t).map fun (x, n) => (x, n + 1)
    else if c = 'U' then (signedEscape? 8 t).map fun (x, n) => (x, n + 1)
    else if c = 'x' then
      let digits := (t.take 2).takeWhile (isDigitIn 16)
      if digits.isEmpty then some ('x', 1)
      else (asciiEscape? 16 digits).map (·, digits.length + 1)
    else if isDigitIn 8 c then
      let digits := c :: (t.take 2).takeWhile (isDigitIn 8)
      (asciiEscape? 8 digits).map (·, digits.length)
    else some (c, 1)
  found.filter fun (x, _) => x.toNat != 0

def escapedBody? : Text → Option (Text × Nat)
  | [] => none
  | c :: t =>
    if c = '\'' then
      match t with
      | d :: u =>
        if d = '\'' then (escapedBody? u).map fun (s, n) => ('\'' :: s, n + 2) else some ([], 1)
      | [] => some ([], 1)
    else if c = '\\' then
      match t with
      | [] => none
      | d :: u =>
        match escape? d u with
        | none => none
        | some (x, width) =>
          (escapedBody? (u.drop (width - 1))).map fun (s, n) => (x :: s, n + 1 + width)
    else (escapedBody? t).map fun (s, n) => (c :: s, n + 1)
termination_by t => t.length
decreasing_by all_goals simp_all only [List.length_cons, List.length_drop]; omega

/-- A literal introduced by `U&`: a backslash is doubled, or four hexadecimal digits follow it, or
a plus sign and six. -/
def unicodeBody? : Text → Option (Text × Nat)
  | [] => none
  | c :: t =>
    if c = '\'' then
      match t with
      | d :: u =>
        if d = '\'' then (unicodeBody? u).map fun (s, n) => ('\'' :: s, n + 2) else some ([], 1)
      | [] => some ([], 1)
    else if c = '\\' then
      match t with
      | [] => none
      | d :: u =>
        if d = '\\' then (unicodeBody? u).map fun (s, n) => ('\\' :: s, n + 2)
        else
          let used := if d = '+' then 6 else 3
          match if d = '+' then wideEscape? 6 u else wideEscape? 4 (d :: u) with
          | none => none
          | some (x, _) => (unicodeBody? (u.drop used)).map fun (s, n) => (x :: s, n + 2 + used)
    else (unicodeBody? t).map fun (s, n) => (c :: s, n + 1)
termination_by t => t.length
decreasing_by all_goals simp_all only [List.length_cons, List.length_drop]; omega

def identBody? (quote : Char) (t : Text) : Option (Text × Nat) := quotedBody? quote false t

/-- The content of a block comment does not matter, only its length. Comments nest; `last` is the
character before the text. -/
def blockLength? (depth : Nat) (last : Char) : Text → Option Nat
  | [] => none
  | c :: t =>
    if last = '/' && c = '*' then (blockLength? (depth + 1) c t).map (· + 1)
    else if last = '*' && c = '/' then
      if depth ≤ 1 then some 1 else (blockLength? (depth - 1) c t).map (· + 1)
    else (blockLength? depth c t).map (· + 1)

def lineLength (t : Text) : Nat :=
  let n := (t.takeWhile (· != '\n')).length
  if n < t.length then n + 1 else n

/-! ## Dollar signs -/

/-- The text behind two dollar signs, up to the next two. A dollar sign that stands alone is kept
with the character behind it. -/
def dollarBody? (last : Char) : Text → Option (Text × Nat)
  | [] => none
  | c :: t =>
    if last = '$' then
      if c = '$' then some ([], 1)
      else (dollarBody? c t).map fun (s, n) => ('$' :: c :: s, n + 1)
    else if c = '$' then (dollarBody? c t).map fun (s, n) => (s, n + 1)
    else (dollarBody? c t).map fun (s, n) => (c :: s, n + 1)

/-- The number of characters up to and including the closing mark of a literal with a tag. Behind a
dollar sign the characters of the tag are compared one by one, and `tag` holds those that are left;
a character that differs is passed over, even if it is a dollar sign itself. -/
def taggedLength? (whole : Text) (tag : Option Text) : Text → Option Nat
  | [] => none
  | c :: t =>
    match tag with
    | none => (taggedLength? whole (if c = '$' then some whole else none) t).map (· + 1)
    | some [] => if c = '$' then some 1 else (taggedLength? whole none t).map (· + 1)
    | some (x :: more) =>
      (taggedLength? whole (if c = x then some more else none) t).map (· + 1)

def dollar? (t : Text) : Option (Token × Nat) :=
  if t.head? == some '$' then
    (dollarBody? ' ' (t.drop 1)).map fun (s, n) => (.dollarQuoted (String.ofList s) none, n + 1)
  else
    let name := t.takeWhile fun c => isLetter c || isNumeral c || c == '_'
    let rest := t.drop name.length
    if rest.head? == some '$' then
      let body := rest.drop 1
      (taggedLength? name none body).map fun n =>
        (.dollarQuoted (String.ofList (body.take (n - name.length - 2)))
          (some (String.ofList name)), name.length + 1 + n)
    else some (.placeholder (String.ofList ('$' :: name)), name.length)

/-! ## Words and numbers -/

/-- A word whose first characters are `first`; further identifier characters follow in `t`. Digits
and dots alone are a number. -/
def word (d : Dialect) (first t : Text) : Token × Nat :=
  let more := t.takeWhile (isIdentPart d)
  let value := first ++ more
  if value.all (fun c => isAsciiDigit c || c == '.') then
    let tail := (t.drop more.length).takeWhile fun c => isAsciiDigit c || c == '.'
    (.number (String.ofList (value ++ tail)) false, more.length + tail.length)
  else (.word ⟨String.ofList value, none⟩, more.length)

def exponent (t : Text) : Text :=
  match t with
  | e :: u =>
    if e = 'e' || e = 'E' then
      let sign := u.take 1 |>.takeWhile fun c => c == '+' || c == '-'
      let digits := (u.drop sign.length).takeWhile isAsciiDigit
      if digits.isEmpty then [] else e :: sign ++ digits
    else []
  | [] => []

/-- What starts with the digit or dot at the head of a text. In MySQL a number with letters behind
it is a word, unless the first of them could start an exponent. -/
def number (d : Dialect) (t : Text) : Token × Nat :=
  let whole := t.takeWhile isAsciiDigit
  let t₁ := t.drop whole.length
  if whole = ['0'] && t₁.head? == some 'x' then
    let digits := (t₁.drop 1).takeWhile (isDigitIn 16)
    (.hex (String.ofList digits), digits.length + 1)
  else
    let point := t₁.take 1 |>.takeWhile (· == '.')
    let t₂ := t₁.drop point.length
    let fraction := t₂.takeWhile isAsciiDigit
    let digits := whole ++ point ++ fraction
    if digits = ['.'] then (.symbol ".", 0)
    else
      let power := exponent (t₂.drop fraction.length)
      let t₃ := t₂.drop (fraction.length + power.length)
      let startsPower := t₃.head? == some 'e' || t₃.head? == some 'E'
      let letters :=
        if d = .mysql && power.isEmpty && !startsPower then t₃.takeWhile (isIdentPart d) else []
      if letters.isEmpty then
        let long := t₃.head? == some 'L'
        (.number (String.ofList (digits ++ power)) long,
          digits.length + power.length - 1 + (if long then 1 else 0))
      else (.word ⟨String.ofList (digits ++ letters), none⟩, digits.length + letters.length - 1)

/-! ## Operators -/

def spellings (d : Dialect) (c : Char) : List String :=
  if c = '-' then ["->>", "->", "-"]
  else if c = '/' then if d = .plsql then ["//", "/"] else ["/"]
  else if c = '%' then ["%"]
  else if c = '|' then ["||/", "||", "|/", "|"]
  else if c = '=' then ["=>", "==", "="]
  else if c = '!' then ["!~~*", "!~~", "!~*", "!~", "!=", "!!", "!"]
  else if c = '<' then ["<=>", "<=", "<>", "<<", "<@", "<"]
  else if c = '>' then [">=", ">>", ">"]
  else if c = ':' then ["::", ":=", ":"]
  else if c = '&' then ["&&", "&"]
  else if c = '^' then ["^@", "^"]
  else if c = '~' then ["~~*", "~~", "~*", "~"]
  else if c = '#' then ["#>>", "#>", "#-", "#"]
  else if "()*+,;\\[]\x7b\x7d".toList.contains c then [String.ofList [c]]
  else []

/-- A character such that an operator that starts with it takes in the operator characters behind
it. -/
def isExtensible (c : Char) : Bool := "-%|<>&~#".toList.contains c

def operator (d : Dialect) (spelling : String) (c : Char) (t : Text) : Token × Nat :=
  let n := spelling.length - 1
  let more := if isExtensible c then (t.drop n).takeWhile (isOperatorPart d) else []
  if more.isEmpty then (.symbol (if spelling = "!=" then "<>" else spelling), n)
  else (.operator (spelling ++ String.ofList more), n + more.length)

def operator? (d : Dialect) (c : Char) (t : Text) : Option (Token × Nat) :=
  ((spellings d c).find? fun s => s.toList.isPrefixOf (c :: t)).map fun s => operator d s c t

def sharp (d : Dialect) (t : Text) : Token × Nat :=
  match t with
  | c :: u =>
    if c = ' ' then (.symbol "#", 0)
    else if c = '-' || c = '>' || !isIdentStart d '#' then (operator? d '#' t).getD (.symbol "#", 0)
    else
      let (w, n) := word d ['#', c] u
      (w, n + 1)
  | [] => (.symbol "#", 0)

/-- What starts with an at sign: an operator, or a word where such a sign can start one. Of a word,
the character behind the sign may be any. -/
def atSign (d : Dialect) (t : Text) : Token × Nat :=
  match t with
  | [] => (.symbol "@", 0)
  | c :: u =>
    if c = '>' || c = '?' then (.symbol (String.ofList ['@', c]), 1)
    else if c = '@' then
      match u with
      | e :: v =>
        if e = ' ' || !isIdentStart d '@' then (.symbol "@@", 1)
        else
          let (w, n) := word d ['@', '@', e] v
          (w, n + 2)
      | [] => (.symbol "@@", 1)
    else if c = ' ' || !isIdentStart d '@' then (.symbol "@", 0)
    else
      let (w, n) := word d ['@', c] u
      (w, n + 1)

/-- What starts with a question mark. Where it is an operator, the character behind a single one
belongs to it. -/
def question (d : Dialect) (t : Text) : Token × Nat :=
  if d = .postgresql then
    match t with
    | c :: _ =>
      if c = '|' || c = '&' then (.symbol (String.ofList ['?', c]), 1)
      else (.symbol "?", 1)
    | [] => (.symbol "?", 0)
  else
    let digits := t.takeWhile isNumeral
    (.placeholder (String.ofList ('?' :: digits)), digits.length)

/-! ## The tokenizer -/

def literal (make : String → Token) (opening : Nat) (body : Option (Text × Nat)) :
    Option (Token × Nat) :=
  body.map fun (s, n) => (make (String.ofList s), n + opening)

/-- The token at the head of `c :: t` and the number of characters of `t` it covers; `none` if a
literal or comment there is not closed. -/
def piece? (d : Dialect) (c : Char) (t : Text) : Option (Token × Nat) :=
  let next := t.head?
  let behind := t.drop 1
  let escapes := d == .mysql
  if c = ' ' || c = '\t' || c = '\n' || c = '\r' then some (.gap, 0)
  else if (c = 'b' || c = 'B') && d != .tsql && (next == some '\'' || next == some '"') then
    let quote := next.getD ' '
    literal (.bytes quote) 1 (quotedBody? quote false behind)
  else if (c = 'r' || c = 'R') && d == .plsql && (next == some '\'' || next == some '"') then
    let quote := next.getD ' '
    literal (.raw quote) 1 (rawBody? quote behind)
  else if (c = 'n' || c = 'N') && next == some '\'' then
    literal .national 1 (quotedBody? '\'' true behind)
  else if (c = 'e' || c = 'E') && next == some '\'' then literal .escaped 1 (escapedBody? behind)
  else if (c = 'u' || c = 'U') && (d == .postgresql || d == .plsql) && t.take 2 == ['&', '\''] then
    literal .unicode 2 (unicodeBody? (t.drop 2))
  else if (c = 'x' || c = 'X') && next == some '\'' then
    literal .hex 1 (quotedBody? '\'' true behind)
  else if c = '\'' then literal .quoted 0 (quotedBody? c escapes t)
  else if c = '"' && !isIdentQuote d c then literal .doubleQuoted 0 (quotedBody? c escapes t)
  else if isIdentQuote d c then
    literal (fun s => .word ⟨s, some c⟩) 0 (identBody? (if c = '[' then ']' else c) t)
  else if isAsciiDigit c || c = '.' then some (number d (c :: t))
  else if c = '-' && next == some '-' then some (.gap, 1 + lineLength behind)
  else if c = '/' && next == some '*' then (blockLength? 1 ' ' behind).map fun n => (.gap, n + 1)
  else if c = '#' then some (if d = .mysql then (.gap, lineLength t) else sharp d t)
  else if c = '@' then some (atSign d t)
  else if c = '?' then some (question d t)
  else if let some found := operator? d c t then some found
  else if isIdentStart d c then some (word d [c] t)
  else if c = '$' then dollar? t
  else if isBlank c then some (.gap, 0)
  else some (.other c, 0)

end Tokenize

/-- The tokens of a text, white space and comments included; `none` if a literal, quoted identifier
or block comment is not closed. -/
def tokens? (d : Dialect) : Text → Option (List Token)
  | [] => some []
  | c :: t =>
    match Tokenize.piece? d c t with
    | none => none
    | some (token, more) => (tokens? d (t.drop more)).map (token :: ·)
termination_by t => t.length
decreasing_by simp only [List.length_drop, List.length_cons]; omega

end SqlOutline.Sql
