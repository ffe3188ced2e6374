import SqlOutline.Text.Basic

/-!
# White space

The ASCII white space that separates lexemes is Unicode's without the vertical tab.

## Main definitions

* `isBlank`, `trim`, `words`, `lines` — white space, and texts without it or between it.
-/

namespace SqlOutline.Text

/-- White space in the sense of Unicode. -/
def isBlank (c : Char) : Bool :=
  let n := c.toNat
  (0x09 ≤ n && n ≤ 0x0D) || n == 0x20 || n == 0x85 || n == 0xA0 || n == 0x1680
    || (0x2000 ≤ n && n ≤ 0x200A) || n == 0x2028 || n == 0x2029 || n == 0x202F
    || n == 0x205F || n == 0x3000

/-- The white space that separates lexemes. -/
def isAsciiBlank (c : Char) : Bool :=
  c == ' ' || c == '\t' || c == '\n' || c == '\r' || c == '\x0c'

def trimStart (t : Text) : Text := t.dropWhile isBlank

/-- A text without the white space it ends in. -/
def trimEnd (t : Text) : Text := (t.reverse.dropWhile isBlank).reverse

/-- A text without white space at its ends. -/
def trim (t : Text) : Text := trimEnd (trimStart t)

/-- The maximal pieces of a text that are free of white space. -/
def words (t : Text) : List Text :=
  (splitOnChar isBlank t).filter (!·.isEmpty)

def dropReturn (t : Text) : Text :=
  if endsWith ['\r'] t then t.dropLast else t

/-- The lines of a text: pieces that end in a line feed, which with a carriage return before it is
not part of the line, and a last piece if it is not empty. -/
def lines (t : Text) : List Text :=
  let pieces := splitOnChar (· == '\n') t
  let full := pieces.dropLast.map dropReturn
  match pieces.getLast? with
  | some (c :: r) => full ++ [c :: r]
  | _ => full

end SqlOutline.Text
