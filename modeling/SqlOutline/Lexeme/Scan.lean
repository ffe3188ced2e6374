import SqlOutline.Lexeme.Basic

/-!
# Scanning

White space and comments stand between lexemes. Scanning never fails: what is not closed runs to the
end of the text. A line that consists of a slash, of `GO` with an optional count, or of `DELIMITER`
and a mark is a directive, provided that only white space and line comments stand before it on its
line. The mark is a lexeme of its own wherever a lexeme starts.

## Main definitions

* `piece` — one step of the scanner.
* `tokenize`, `scanScript` — the lexemes of a text, and of a script with directives.
-/

namespace SqlOutline

namespace Scan

open Text

/-- What the scanner knows between two pieces of a text. -/
structure State where
  /-- No lexeme stands before on the line. -/
  freshLine : Bool := true
  /-- The mark that ends a statement, if it is not the semicolon. -/
  delimiter : Option Text := none
  deriving Repr, DecidableEq

/-- A piece at the head of a text. It covers the first character and `more` characters after it;
`skip` characters behind it are dropped with it. A piece without a kind is a gap. -/
structure Piece where
  kind : Option LexemeKind
  more : Nat
  skip : Nat := 0
  state : State

def lexeme (kind : LexemeKind) (more : Nat) (st : State) : Piece :=
  ⟨some kind, more, 0, { st with freshLine := false }⟩

def lineLength (t : Text) : Nat := (t.takeWhile (· != '\n')).length

/-! ## Literals and quoted identifiers -/

/-- The number of characters of a quoted run behind its opening quote. A doubled quote does not
close it. -/
def quotedLength (quote : Char) : Text → Nat
  | [] => 0
  | c :: t =>
    if c = quote then
      match t with
      | d :: u => if d = quote then quotedLength quote u + 2 else 1
      | [] => 1
    else quotedLength quote t + 1

/-- The number of characters of a bracketed identifier behind its bracket: it is not empty and
closes on its line. -/
def bracketLength? (t : Text) : Option Nat :=
  let inner := t.takeWhile fun c => c != ']' && c != '\n'
  if !inner.isEmpty && (t.drop inner.length).head? == some ']' then some (inner.length + 1)
  else none

def isTagChar (c : Char) : Bool := isAsciiAlnum c || c == '_'

/-- The dollar tag that starts with a dollar sign before `t`, without that sign: it is empty or a
name that does not start with a digit, and ends in a dollar sign. -/
def dollarTag? (t : Text) : Option Text :=
  let name := t.takeWhile isTagChar
  if name.head?.any isAsciiDigit then none
  else if (t.drop name.length).head? == some '$' then some (name ++ ['$']) else none

def dollarLength (tag t : Text) : Nat :=
  let body := t.drop tag.length
  match beforeSub? ('$' :: tag) body with
  | some inner => tag.length + inner.length + tag.length + 1
  | none => t.length

/-! ## Words and numbers -/

def isWordStart (c : Char) : Bool :=
  isAsciiAlpha c || c == '_' || c == '@' || c == '#' || isWide c

/-- The number of characters of a word behind its first. A dollar sign belongs to the word unless
another follows it. -/
def wordLength : Text → Nat
  | [] => 0
  | c :: t =>
    if isAsciiAlnum c || c == '_' || c == '#' || c == '@' || isWide c
      || (c == '$' && t.head? != some '$')
    then wordLength t + 1 else 0

def numberLength (t : Text) : Nat :=
  (t.takeWhile fun c => isAsciiAlnum c || c == '.' || c == '_').length

/-! ## Directives -/

def isBatchCount : List Text → Bool
  | [] => true
  | [n] => n.all isAsciiDigit
  | _ => false

def directive? (st : State) (c : Char) (t : Text) : Option Piece :=
  let width := lineLength (c :: t)
  let line := trimEnd ((c :: t).take width)
  let batch (n : Nat) : Piece :=
    { lexeme .directive (n - 1) st with skip := width - n }
  if line = ['/'] then some (batch 1)
  else
    match words line with
    | first :: rest =>
      if eqIgnoreCase first "GO".toList then
        if isBatchCount rest then some (batch line.length) else none
      else if eqIgnoreCase first "DELIMITER".toList then
        match rest with
        | mark :: _ =>
          if mark.any isAsciiAlnum then none
          else
            let before := (beforeSub? mark line).getD first
            let delimiter := if mark = [';'] then none else some mark
            some (lexeme .directive (before.length + mark.length - 1) { st with delimiter })
        | [] => none
      else none
    | [] => none

/-! ## The scanner -/

def plainPiece (st : State) (c : Char) (t : Text) : Piece :=
  let next := t.head?
  let comment (more : Nat) : Piece := ⟨none, more, 0, st⟩
  if c = '-' && next == some '-' then comment (lineLength t)
  else if c = '/' && next == some '*' then
    match beforeSub? ['*', '/'] (t.drop 1) with
    | some inner => { comment (inner.length + 3) with state := { st with freshLine := false } }
    | none => { comment t.length with state := { st with freshLine := false } }
  else if c = '#' && next.all (fun d => isAsciiBlank d || d == '#') then comment (lineLength t)
  else if c = '\'' then lexeme .stringLit (quotedLength c t) st
  else if c = '"' || c = '`' then lexeme .quotedIdent (quotedLength c t) st
  else if c = '[' then
    match bracketLength? t with
    | some n => lexeme .quotedIdent n st
    | none => lexeme .symbol 0 st
  else if c = '$' then
    match st.delimiter, dollarTag? t with
    | none, some tag => lexeme .dollarBody (dollarLength tag t) st
    | _, _ => lexeme .symbol 0 st
  else if isAsciiDigit c then lexeme .number (numberLength t) st
  else if isWordStart c then lexeme .word (wordLength t) st
  else lexeme .symbol 0 st

/-- The piece at the head of `c :: t`. Directives are only looked for in a script. -/
def piece (script : Bool) (st : State) (c : Char) (t : Text) : Piece :=
  if isAsciiBlank c then
    ⟨none, 0, 0, { st with freshLine := st.freshLine || c == '\n' }⟩
  else
    let line := if script && st.freshLine then directive? st c t else none
    match line, st.delimiter with
    | some p, _ => p
    | none, some mark =>
      if mark.isPrefixOf (c :: t) then lexeme .delimiter (mark.length - 1) st
      else plainPiece st c t
    | none, none => plainPiece st c t

end Scan

def scanFrom (script : Bool) (st : Scan.State) (offset : Nat) : Text → List Lexeme
  | [] => []
  | c :: t =>
    let p := Scan.piece script st c t
    let text := c :: t.take p.more
    let rest := t.drop (p.more + p.skip)
    let after := offset + Text.byteLength (c :: t.take (p.more + p.skip))
    match p.kind with
    | some kind => ⟨kind, text, offset⟩ :: scanFrom script p.state after rest
    | none => scanFrom script p.state after rest
termination_by t => t.length
decreasing_by all_goals simp only [List.length_drop, List.length_cons]; omega

/-- The lexemes of a script, directives and delimiters among them. -/
def scanScript (t : Text) : List Lexeme := scanFrom true {} 0 t

/-- The lexemes of a single statement or fragment. -/
def tokenize (t : Text) : List Lexeme := scanFrom false {} 0 t

/-! ## What literals hold -/

def undouble : Text → Text
  | '\'' :: '\'' :: t => '\'' :: undouble t
  | c :: t => c :: undouble t
  | [] => []

/-- The content of a string literal: one apostrophe is cut off at each end, and doubled ones
inside stand for one. -/
def stringContent (t : Text) : Text :=
  let inner := if t.head? == some '\'' then t.drop 1 else t
  undouble (if inner.getLast? == some '\'' then inner.dropLast else inner)

/-- The text between the tags of a dollar body, or behind its first tag if it is not closed. -/
def dollarInner (t : Text) : Text :=
  if Text.byteLength t < 2 then t
  else
    match Text.beforeSub? ['$'] (t.drop 1) with
    | none => t
    | some name =>
      let tag := t.take (name.length + 2)
      if tag.length * 2 ≤ t.length && Text.endsWith tag t then
        (t.drop tag.length).take (t.length - tag.length * 2)
      else t.drop tag.length

end SqlOutline
