/-!
# Source text

A source text is a list of characters. Positions in it are counted in bytes of its UTF-8 form, so
every cut of a text is measured by `byteLength`.

## Main definitions

* `Text` — a source text.
* `byteLength` — the size of a text in bytes.
* `dropBytes`, `takeBytes`, `slice` — the part of a text after, before or between byte offsets.

## Main results

* `byteLength_append` — sizes add up under concatenation.
* `dropBytes_byteLength`, `takeBytes_byteLength` — cutting at the size of a first part splits off
  exactly that part.
-/

namespace SqlOutline

abbrev Text := List Char

namespace Text

def byteLength : Text → Nat
  | [] => 0
  | c :: t => c.utf8Size + byteLength t

@[simp]
theorem byteLength_nil : byteLength [] = 0 := rfl

@[simp]
theorem byteLength_cons (c : Char) (t : Text) :
    byteLength (c :: t) = c.utf8Size + byteLength t := rfl

@[simp]
theorem byteLength_append (s t : Text) :
    byteLength (s ++ t) = byteLength s + byteLength t := by
  induction s with
  | nil => simp
  | cons c s ih => simp [ih, Nat.add_assoc]

def dropBytes : Nat → Text → Text
  | _, [] => []
  | n, c :: t => if n = 0 then c :: t else dropBytes (n - c.utf8Size) t

def takeBytes : Nat → Text → Text
  | _, [] => []
  | n, c :: t => if n = 0 then [] else c :: takeBytes (n - c.utf8Size) t

def slice (start stop : Nat) (t : Text) : Text :=
  takeBytes (stop - start) (dropBytes start t)

/-- Cutting off the size of a first part leaves the second. -/
@[simp]
theorem dropBytes_byteLength (s t : Text) : dropBytes (byteLength s) (s ++ t) = t := by
  induction s with
  | nil => cases t <;> simp [dropBytes]
  | cons c s ih =>
    have h : c.utf8Size ≠ 0 := Nat.ne_of_gt (Char.utf8Size_pos c)
    simp [dropBytes, h, ih]

/-- Keeping the size of a first part keeps exactly that part. -/
@[simp]
theorem takeBytes_byteLength (s t : Text) : takeBytes (byteLength s) (s ++ t) = s := by
  induction s with
  | nil => cases t <;> simp [takeBytes]
  | cons c s ih =>
    have h : c.utf8Size ≠ 0 := Nat.ne_of_gt (Char.utf8Size_pos c)
    simp [takeBytes, h, ih]

def isBoundary : Nat → Text → Bool
  | 0, _ => true
  | _, [] => false
  | n, c :: t => c.utf8Size ≤ n && isBoundary (n - c.utf8Size) t

def beforeSub? (needle : Text) : Text → Option Text
  | [] => if needle.isEmpty then some [] else none
  | c :: t =>
    if needle.isPrefixOf (c :: t) then some [] else (beforeSub? needle t).map (c :: ·)

def containsSub (needle t : Text) : Bool :=
  (beforeSub? needle t).isSome

def endsWith (needle t : Text) : Bool :=
  needle.isSuffixOf t

/-- The pieces between the characters that satisfy `sep`; one piece more than there are
separators. -/
def splitOnChar (sep : Char → Bool) : Text → List Text
  | [] => [[]]
  | c :: t =>
    if sep c then [] :: splitOnChar sep t
    else
      match splitOnChar sep t with
      | [] => [[c]]
      | p :: ps => (c :: p) :: ps

def join (glue : Text) : List Text → Text
  | [] => []
  | [p] => p
  | p :: ps => p ++ glue ++ join glue ps

end Text

end SqlOutline
