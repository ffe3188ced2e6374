import SqlOutline.Lexeme.Scan
import SqlOutline.Name

/-!
# Groups of lexemes

## Main definitions

* `readChain?`, `readName?` — a dotted name, as text and as an object.
* `bracketed`, `splitTopLevel` — a list in parentheses, and the items between commas.
-/

namespace SqlOutline

open Text

/-! ## Parentheses -/

def closingFrom? (depth : Nat) : List Lexeme → Option Nat
  | [] => none
  | l :: ls =>
    if l.isSymbol '(' then (closingFrom? (depth + 1) ls).map (· + 1)
    else if l.isSymbol ')' then
      if depth ≤ 1 then some 0 else (closingFrom? (depth - 1) ls).map (· + 1)
    else (closingFrom? depth ls).map (· + 1)

/-- The place of the parenthesis that closes the one at the front of a list. -/
def matchingParen? (ls : List Lexeme) : Option Nat := closingFrom? 0 ls

/-- What stands between the parenthesis at the front of a list and the one that closes it, and what
stands behind that one. A parenthesis that nothing closes reaches to the end. -/
def bracketed (ls : List Lexeme) : List Lexeme × List Lexeme :=
  match matchingParen? ls with
  | some n => ((ls.take n).drop 1, ls.drop (n + 1))
  | none => (ls.drop 1, [])

def depthBehind (depth : Nat) (l : Lexeme) : Nat :=
  if l.isSymbol '(' then depth + 1 else if l.isSymbol ')' then depth - 1 else depth

def consItem (l : Lexeme) : List (List Lexeme) → List (List Lexeme)
  | [] => [[l]]
  | item :: items => (l :: item) :: items

def itemsFrom (depth : Nat) : List Lexeme → List (List Lexeme)
  | [] => [[]]
  | l :: ls =>
    if depth = 0 && l.isSymbol ',' then [] :: itemsFrom 0 ls
    else consItem l (itemsFrom (depthBehind depth l) ls)

/-- The items between the commas outside parentheses that are not empty. -/
def splitTopLevel (ls : List Lexeme) : List (List Lexeme) := (itemsFrom 0 ls).filter (!·.isEmpty)

/-! ## Source text -/

/-- The source text from the first to the last of some lexemes. -/
def spanText? (source : Text) (ls : List Lexeme) : Option Text :=
  match ls.head?, ls.getLast? with
  | some first, some last => some (slice first.start last.stop source)
  | _, _ => none

def spanType? (source : Text) (ls : List Lexeme) : Option String :=
  ((spanText? source ls).bind Name.normalizeType?).map String.ofList

/-! ## Words -/

/-- The lexemes behind a word that is among the first `n`. -/
def behindWord? (word : String) : Nat → List Lexeme → Option (List Lexeme)
  | 0, _ => none
  | _, [] => none
  | n + 1, l :: ls => if l.isWord word then some ls else behindWord? word n ls

theorem behindWord?_append {word : String} {n : Nat} {ks ls : List Lexeme} {l : Lexeme}
    (hks : ∀ k ∈ ks, k.isWord word = false) (hl : l.isWord word = true) :
    behindWord? word n (ks ++ l :: ls) = if ks.length < n then some ls else none := by
  induction n generalizing ks with
  | zero => simp [behindWord?]
  | succ n ih =>
    cases ks with
    | nil => simp [behindWord?, hl]
    | cons k ks =>
      rw [List.forall_mem_cons] at hks
      simp [behindWord?, hks.1, ih hks.2]

/-- Whether lexemes start with words. -/
def startsWithWords : List String → List Lexeme → Bool
  | [], _ => true
  | _ :: _, [] => false
  | w :: ws, l :: ls => l.isWord w && startsWithWords ws ls

/-! ## Names -/

def chainLength : List Lexeme → Nat
  | dot :: name :: rest => if dot.isSymbol '.' && name.isName then 2 + chainLength rest else 0
  | _ => 0

/-- The dotted name at the front of a list, as it is written, and the lexemes behind it. -/
def readChain? (source : Text) : List Lexeme → Option (Text × List Lexeme)
  | [] => none
  | first :: rest =>
    if first.isName then
      let n := chainLength rest
      let last := (rest.take n).getLast?.getD first
      some (slice first.start last.stop source, rest.drop n)
    else none

/-- The object that the dotted name at the front of a list stands for, and the lexemes behind it. -/
def readName? (source : Text) (ls : List Lexeme) : Option (QualifiedName × List Lexeme) := do
  let (chain, rest) ← readChain? source ls
  return (← QualifiedName.ofChain? chain, rest)

def Lexeme.plain? (l : Lexeme) : Option String := (Name.stripQuotes? l.text).map String.ofList

end SqlOutline
