import SqlOutline.Text.Blank
import SqlOutline.Text.WordChars
import SqlOutline.Text.Digits

/-!
# Text patterns

Among the ways in which a pattern matches at a place, an alternative prefers its first branch, a
greedy repetition another round, and a reluctant one to stop.

## Main definitions

* `Pattern`, `run` — patterns for unlexed text, and how they are matched.
* `find?`, `findAll`, `replaceAll` — the first match, all of them, and their replacement.
-/

namespace SqlOutline

/-- A pattern over the characters of a text. -/
inductive Pattern where
  /-- Matches without moving. -/
  | empty
  /-- One character of a class. -/
  | one (p : Char → Bool)
  /-- A boundary between a word character and none. -/
  | boundary
  /-- The start of the text. -/
  | atStart
  /-- The end of the text. -/
  | atEnd
  /-- The first pattern, then the second. -/
  | seq (p q : Pattern)
  /-- Either pattern, the first preferred. -/
  | alt (p q : Pattern)
  /-- Any number of rounds, as many as possible if `greedy` and as few as possible if not. -/
  | many (greedy : Bool) (p : Pattern)
  /-- A pattern whose text is kept under a number. -/
  | group (n : Nat) (p : Pattern)

/-- A captured piece of text with the byte offsets of its ends. -/
structure Capture where
  start : Nat
  stop : Nat
  text : Text
  deriving Repr, DecidableEq

/-- A place in a text: the character before it, the text after it, its byte offset and the groups
captured so far, the latest first. -/
structure Cursor where
  before : Option Char
  rest : Text
  offset : Nat
  groups : List (Nat × Capture)

namespace Cursor

def ofText (t : Text) : Cursor := ⟨none, t, 0, []⟩

def next (c : Char) (rest : Text) (k : Cursor) : Cursor :=
  { k with before := some c, rest := rest, offset := k.offset + c.utf8Size }

def textTo (k l : Cursor) : Capture :=
  ⟨k.offset, l.offset, Text.takeBytes (l.offset - k.offset) k.rest⟩

def group? (k : Cursor) (n : Nat) : Option Capture := (k.groups.find? (·.1 == n)).map (·.2)

end Cursor

namespace Pattern

abbrev Continuation := Cursor → Option Cursor

/-- Rounds of `step`, at most one for each character of `fuel`. A round that does not move is not
taken. -/
def rounds (step : Cursor → Continuation → Option Cursor) (greedy : Bool) :
    Text → Cursor → Continuation → Option Cursor
  | [], k, next => next k
  | _ :: fuel, k, next =>
    let another (_ : Unit) :=
      step k fun l => if k.offset < l.offset then rounds step greedy fuel l next else none
    if greedy then
      match another () with
      | some r => some r
      | none => next k
    else
      match next k with
      | some r => some r
      | none => another ()

/-- The preferred way to match at a place such that `next` succeeds after it. -/
def run : Pattern → Cursor → Continuation → Option Cursor
  | .empty, k, next => next k
  | .one p, k, next =>
    match k.rest with
    | [] => none
    | c :: t => if p c then next (k.next c t) else none
  | .boundary, k, next => if Text.isWordBoundary k.before k.rest.head? then next k else none
  | .atStart, k, next => if k.offset = 0 then next k else none
  | .atEnd, k, next => if k.rest.isEmpty then next k else none
  | .seq p q, k, next => p.run k fun l => q.run l next
  | .alt p q, k, next => match p.run k next with
    | some r => some r
    | none => q.run k next
  | .many greedy p, k, next => rounds p.run greedy k.rest k next
  | .group n p, k, next =>
    p.run k fun l => next { l with groups := (n, k.textTo l) :: l.groups }

def matchAt? (p : Pattern) (k : Cursor) : Option Cursor :=
  p.run { k with groups := [] } some

/-- A match: the place where it starts and the place behind it with its groups. -/
structure Found where
  start : Cursor
  stop : Cursor

namespace Found

def whole (m : Found) : Capture := m.start.textTo m.stop

def text? (m : Found) (n : Nat) : Option Text := (m.stop.group? n).map (·.text)

end Found

def findFrom? (p : Pattern) (before : Option Char) (offset : Nat) : Text → Option Found
  | [] =>
    let k : Cursor := ⟨before, [], offset, []⟩
    (p.matchAt? k).map fun l => ⟨k, l⟩
  | c :: t =>
    let k : Cursor := ⟨before, c :: t, offset, []⟩
    match p.matchAt? k with
    | some l => some ⟨k, l⟩
    | none => findFrom? p (some c) (offset + c.utf8Size) t

/-- The leftmost match in a text. -/
def find? (p : Pattern) (t : Text) : Option Found := p.findFrom? none 0 t

def isIn (p : Pattern) (t : Text) : Bool := (p.find? t).isSome

def findAllFrom (p : Pattern) (before : Option Char) (offset : Nat) (rest : Text) : List Found :=
  match p.findFrom? before offset rest with
  | none => []
  | some m =>
    if m.stop.rest.length < rest.length then
      m :: findAllFrom p m.stop.before m.stop.offset m.stop.rest
    else [m]
termination_by rest.length

/-- The successive matches in a text, from left to right. -/
def findAll (p : Pattern) (t : Text) : List Found := p.findAllFrom none 0 t

def replaceAll (p : Pattern) (new : Text) (t : Text) : Text :=
  go 0 t (p.findAll t)
where
  /-- Copies the text between the matches, the first of which starts at or behind `start`. -/
  go (start : Nat) (rest : Text) : List Found → Text
    | [] => rest
    | m :: ms =>
      Text.takeBytes (m.whole.start - start) rest ++ new
        ++ go m.whole.stop (Text.dropBytes (m.whole.stop - start) rest) ms

/-! ## Building patterns -/

def all : List Pattern → Pattern
  | [] => .empty
  | [p] => p
  | p :: ps => .seq p (all ps)

def anyOf : List Pattern → Pattern
  | [] => .one fun _ => false
  | [p] => p
  | p :: ps => .alt p (anyOf ps)

def opt (p : Pattern) : Pattern := .alt p .empty

def some1 (p : Pattern) : Pattern := .seq p (.many true p)

def letterMatches (k c : Char) : Bool :=
  c.toUpper == k.toUpper || (k.toUpper == 'K' && c.toNat == 0x212A)
    || (k.toUpper == 'S' && c.toNat == 0x17F)

def lit (s : String) : Pattern := all (s.toList.map fun k => .one (letterMatches k))

def char (c : Char) : Pattern := .one (· == c)

def except (c : Char) : Pattern := .one (· != c)

def blanks : Pattern := some1 (.one Text.isBlank)

def blanks0 : Pattern := .many true (.one Text.isBlank)

def phrase : List String → Pattern
  | [] => .empty
  | [w] => lit w
  | w :: ws => .seq (lit w) (.seq blanks (phrase ws))

end Pattern

end SqlOutline
