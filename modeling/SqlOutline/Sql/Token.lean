import SqlOutline.Sql.Keyword
import SqlOutline.Text.Case

/-!
# Tokens of the SQL grammars

Literals are told apart by their introducers, their escapes are resolved, and operators of several
characters are one token.

## Main definitions

* `Token`, `Word` — what the grammars read in place of lexemes.
-/

namespace SqlOutline.Sql

/-- An identifier or keyword, with the opening quote around it. -/
structure Word where
  value : String
  quote : Option Char
  deriving Repr, DecidableEq

/-- A token. -/
inductive Token where
  | word (w : Word)
  /-- A number, with the mark `L` behind it or without. -/
  | number (digits : String) (long : Bool)
  /-- A literal between apostrophes. -/
  | quoted (s : String)
  /-- A literal between double quotes, where those do not quote identifiers. -/
  | doubleQuoted (s : String)
  | dollarQuoted (s : String) (tag : Option String)
  /-- A literal introduced by `N`. -/
  | national (s : String)
  /-- A literal introduced by `E`. -/
  | escaped (s : String)
  /-- A literal introduced by `U&`. -/
  | unicode (s : String)
  /-- A literal introduced by `X`, or digits introduced by `0x`. -/
  | hex (s : String)
  /-- A literal introduced by `B`, with its quote. -/
  | bytes (quote : Char) (s : String)
  /-- A literal introduced by `R`, with its quote. -/
  | raw (quote : Char) (s : String)
  | placeholder (s : String)
  /-- A mark of punctuation or a known operator. -/
  | symbol (s : String)
  /-- An operator spelled in operator characters that has no fixed meaning. -/
  | operator (s : String)
  /-- A character that starts no other token. -/
  | other (c : Char)
  /-- White space or a comment. -/
  | gap
  /-- The end of the input, into which no text is cut. -/
  | eof
  deriving Repr, DecidableEq

namespace Word

def upper (w : Word) : String := Text.upperString w.value.toList

/-- The keyword that a word spells, if it is one: its capitals in the sense of Unicode. Quoted words
spell none. -/
def keyword (w : Word) : String :=
  if w.quote.isSome then "" else Text.capitalString w.value.toList

/-- Whether a word spells a keyword of the grammars. -/
def isKeyword (w : Word) : Bool := w.quote.isNone && vocabulary.contains w.keyword

def isAny (w : Word) (words : List String) : Bool := words.contains w.upper

end Word

namespace Token

/-- The word of a token that is a word without quotes. -/
def plainWord? : Token → Option Word
  | .word w => if w.quote.isNone then some w else none
  | _ => none

def isWord : Token → Bool
  | .word _ => true
  | _ => false

/-- The given keyword, in any letter case. -/
def isKeyword (keyword : String) (t : Token) : Bool :=
  match t with
  | .word w => w.keyword == keyword
  | _ => false

def isSymbol (spelling : String) (t : Token) : Bool :=
  match t with
  | .symbol s => s == spelling
  | _ => false

def isGap : Token → Bool
  | .gap => true
  | _ => false

/-- A gap or the end of the input. -/
def isBlank (t : Token) : Bool := t.isGap || t == .eof

end Token

end SqlOutline.Sql
