import SqlOutline.Text.Basic

/-!
# Patterns for paths

`?` stands for one character and `*` for any text, slashes included; `**` for any number of
directories; brackets hold a choice of characters, or with `!` of excluded ones.

## Main definitions

* `parseGlob?`, `globMatches` — reading a pattern, and whether it matches a whole path.
-/

namespace SqlOutline

/-- A part of a pattern. -/
inductive GlobToken where
  | char (c : Char)
  | anyChar
  /-- One character inside, or outside, of ranges. -/
  | choice (inside : Bool) (ranges : List (Char × Char))
  | anyText
  /-- Any number of directories. -/
  | directories
  deriving Repr, DecidableEq

/-! ## Parsing -/

def globRanges : Text → List (Char × Char)
  | a :: '-' :: b :: t => (a, b) :: globRanges t
  | a :: t => (a, a) :: globRanges t
  | [] => []

/-- The text before a closing bracket, which is not the first character, and the text behind it. -/
def bracketText? : Text → Option (Text × Text)
  | [] => none
  | first :: t =>
    match t.dropWhile (· != ']') with
    | [] => none
    | _ :: rest => some (first :: t.takeWhile (· != ']'), rest)

def globChoice? (t : Text) : Option (GlobToken × Text) :=
  match t with
  | '!' :: t => (bracketText? t).map fun (s, rest) => (.choice false (globRanges s), rest)
  | t => (bracketText? t).map fun (s, rest) => (.choice true (globRanges s), rest)

def globTokensFrom? : Nat → Option Char → Text → Option (List GlobToken)
  | 0, _, _ => none
  | bound + 1, before, t =>
    match t with
    | [] => some []
    | '*' :: '*' :: t =>
      if before.all (· == '/') then
        match t with
        | [] => some [.directories]
        | '/' :: t => (globTokensFrom? bound (some '/') t).map (.directories :: ·)
        | _ => none
      else none
    | '*' :: t => (globTokensFrom? bound (some '*') t).map (.anyText :: ·)
    | '?' :: t => (globTokensFrom? bound (some '?') t).map (.anyChar :: ·)
    | '[' :: t => do
      let (choice, rest) ← globChoice? t
      return choice :: (← globTokensFrom? bound (some ']') rest)
    | c :: t => (globTokensFrom? bound (some c) t).map (.char c :: ·)

/-- A pattern from its text; `none` if it has an open bracket, or stars that are neither alone nor a
whole component. -/
def parseGlob? (t : Text) : Option (List GlobToken) := globTokensFrom? (t.length + 1) none t

/-! ## Matching -/

def GlobToken.accepts (c : Char) : GlobToken → Bool
  | .char k => k == c
  | .anyChar => true
  | .choice inside ranges => ranges.any (fun (a, b) => a ≤ c && c ≤ b) == inside
  | .anyText | .directories => false

/-- Whether `next` holds of a text behind one of the characters that `stop` allows, or of its end.
-/
def holdsBehind (stop : Char → Bool) (next : Text → Bool) : Text → Bool
  | [] => next []
  | c :: t => stop c && next t || holdsBehind stop next t

/-- Whether a pattern matches a path. -/
def globMatches : List GlobToken → Text → Bool
  | [], t => t.isEmpty
  | .anyText :: ts, t => globMatches ts t || holdsBehind (fun _ => true) (globMatches ts) t
  | .directories :: ts, t => globMatches ts t || holdsBehind (· == '/') (globMatches ts) t
  | token :: ts, t =>
    match t with
    | [] => false
    | c :: t => token.accepts c && globMatches ts t

end SqlOutline
