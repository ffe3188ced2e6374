import SqlOutline.Sql.Grammar.Statement
import SqlOutline.Sql.Tokenize

/-!
# Texts as statements

A statement of a script whose dialect is not certain is tried with several grammars in turn.

## Main definitions

* `parseText` — the statements of a text in one dialect.
* `parseAny` — those in the first dialect that accepts it.
-/

namespace SqlOutline.Sql

/-- Why a text is not accepted. -/
inductive ParseError where
  /-- The grammar does not accept the text. -/
  | malformed
  /-- The text has no statements. -/
  | noGrammar
  deriving Repr, DecidableEq

/-- The text of an error. What is wrong with a malformed text is not told: one text stands for all
that the grammar can object to. -/
def ParseError.message : ParseError → String
  | .malformed => "parse error: unexpected token"
  | .noGrammar => "no grammar accepted the statement"

def parseText? (d : Dialect) (t : Text) : Option (List Statement) := (tokens? d t).bind (parse d)

/-- The statements of a text, of which there is at least one, in one dialect. -/
def parseText (d : Dialect) (t : Text) : Except ParseError (List Statement) :=
  match parseText? d t with
  | none => .error .malformed
  | some [] => .error .noGrammar
  | some (s :: ss) => .ok (s :: ss)

/-- The statements of a text in the first of several dialects that finds some; otherwise the last
failure of a grammar, or the given error if none of them failed. -/
def parseFirst (t : Text) (e : ParseError) : List Dialect → Except ParseError (List Statement)
  | [] => .error e
  | d :: ds =>
    match parseText? d t with
    | none => parseFirst t .malformed ds
    | some [] => parseFirst t e ds
    | some (s :: ss) => .ok (s :: ss)

/-- The dialects whose grammars are tried for a statement: the one with the widest grammar, that of
the file, and the most permissive one. -/
def candidates (file : Option Dialect) : List Dialect :=
  .postgresql :: (file.toList.filter (· != .postgresql)) ++ [.plsql]

/-- The statements of a text in the first dialect that accepts it. -/
def parseAny (t : Text) (file : Option Dialect) : Except ParseError (List Statement) :=
  parseFirst t .noGrammar (candidates file)

end SqlOutline.Sql
