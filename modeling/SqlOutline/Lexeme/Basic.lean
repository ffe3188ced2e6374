import SqlOutline.Text.Blank
import SqlOutline.Text.Case

/-!
# Lexemes

The text of a lexeme is the text it covers, so its end follows from its start.

## Main definitions

* `Lexeme` — a word, a quoted identifier, a literal, a number, a symbol, or a mark that ends a
  statement.
-/

namespace SqlOutline

/-- The kinds of lexemes. -/
inductive LexemeKind where
  | word
  /-- An identifier in double quotes, back quotes or brackets. -/
  | quotedIdent
  | stringLit
  /-- A body between dollar tags, tags included. -/
  | dollarBody
  | number
  | symbol
  /-- An occurrence of the delimiter in force. -/
  | delimiter
  /-- A line that sets the delimiter or ends a batch. -/
  | directive
  deriving Repr, DecidableEq

/-- A piece of a script: its kind, its text and the byte offset where it starts. -/
structure Lexeme where
  kind : LexemeKind
  text : Text
  start : Nat
  deriving Repr, DecidableEq

namespace Lexeme

def stop (l : Lexeme) : Nat := l.start + Text.byteLength l.text

def upper (l : Lexeme) : String := Text.upperString l.text

def isWord (l : Lexeme) (keyword : String) : Bool :=
  l.kind == .word && l.upper == keyword

def isAnyWord (l : Lexeme) (keywords : List String) : Bool :=
  l.kind == .word && keywords.contains l.upper

def isSymbol (l : Lexeme) (c : Char) : Bool :=
  l.kind == .symbol && l.text == [c]

def isName (l : Lexeme) : Bool :=
  l.kind == .word || l.kind == .quotedIdent

def isBoundary (l : Lexeme) : Bool :=
  l.kind == .delimiter || l.kind == .directive

def startsWith (l : Lexeme) (c : Char) : Bool := l.text.head? == some c

end Lexeme

end SqlOutline
