import SqlOutline.Text.Basic

/-!
# Files and directories

A place is given by the names on the way from the root.

## Main definitions

* `Disk` — a snapshot of the files and directories that a run can look at.
* `resolve?` — where a spelling leads from a place, if nowhere over a file or a missing name.
-/

namespace SqlOutline

open Text

abbrev Place := List Text

abbrev FileContent := Except String ByteArray

/-- The text of a file. -/
def contentText : FileContent → Except String Text
  | .error reason => .error reason
  | .ok bytes =>
    match String.fromUTF8? bytes with
    | some s => .ok s.toList
    | none => .error "stream did not contain valid UTF-8"

/-- A snapshot of files and directories. A directory is one that is listed or that holds a file. -/
structure Disk where
  directories : List Place := []
  files : List (Place × FileContent) := []

namespace Disk

def file? (d : Disk) (p : Place) : Option FileContent := (d.files.find? (·.1 == p)).map (·.2)

def contentAt (d : Disk) (p : Place) : FileContent :=
  (d.file? p).getD (.error "No such file or directory (os error 2)")

def isFile (d : Disk) (p : Place) : Bool := (d.file? p).isSome

def isDirectory (d : Disk) (p : Place) : Bool :=
  p.isEmpty || d.directories.contains p || d.files.any fun (q, _) => p.isPrefixOf q && p != q

def step? (d : Disk) (p : Place) (name : Text) : Option Place :=
  if !d.isDirectory p then none
  else if name == [] || name == ['.'] then some p
  else if name == ['.', '.'] then some p.dropLast
  else
    let q := p ++ [name]
    if d.isFile q || d.isDirectory q then some q else none

def namesOf (t : Text) : List Text := splitOnChar (· == '/') t

/-- The place that a spelling leads to from a working directory. -/
def resolve? (d : Disk) (cwd : Place) (t : Text) : Option Place :=
  if t.isEmpty then none
  else (namesOf t).foldlM d.step? (if t.head? == some '/' then [] else cwd)

def writable? (d : Disk) (cwd : Place) (t : Text) : Option Place := do
  let names := namesOf t
  let name ← names.getLast?
  if [[], ['.'], ['.', '.']].contains name then none
  let directory ← names.dropLast.foldlM d.step? (if t.head? == some '/' then [] else cwd)
  if !d.isDirectory directory then none
  let p := directory ++ [name]
  if d.isDirectory p then none else some p

def write (d : Disk) (p : Place) (content : FileContent) : Disk :=
  { d with files := (p, content) :: d.files.filter (·.1 != p) }

end Disk

end SqlOutline
