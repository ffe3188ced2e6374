import SqlOutline.Cli.Disk
import SqlOutline.Cli.Glob

/-!
# Discovery of files

A single file, or all files below a directory whose names end in `.sql`.

## Main definitions

* `isExcluded`, `withinLineLimit` — which files are left out.
* `collectFiles?` — the files of a run, sorted by their places.
-/

namespace SqlOutline

open Text

/-- A file with the name under which it is reported. -/
structure SourceFile where
  name : Text
  place : Place
  deriving Repr, DecidableEq

/-! ## Spellings -/

def joinSpelling (base name : Text) : Text :=
  if base == ['.'] then name
  else if endsWith ['/'] base then base ++ name
  else base ++ '/' :: name

def extendSpelling? (base name : Text) : Option Text :=
  if base == ['.'] && name.isEmpty then none else some (joinSpelling base name)

/-- The spelling with which the names of the files of a directory start: that of the directory,
without a reference to the working directory at its front. -/
def baseSpelling? (t : Text) : Option Text :=
  match t with
  | '/' :: t => (Disk.namesOf t).foldlM extendSpelling? ['/']
  | t => (Disk.namesOf t).foldlM extendSpelling? ['.']

/-! ## Limits -/

/-- The number of lines of a file: the pieces between line feeds, an empty last one included. -/
def lineCount (bytes : ByteArray) : Nat := bytes.data.toList.count 10 + 1

/-- Whether a file has at most so many lines. One that cannot be read is kept, so that the run can
report it. -/
def withinLineLimit (limit : Nat) : FileContent → Bool
  | .error _ => true
  | .ok bytes => lineCount bytes ≤ limit

def isExcluded (patterns : List Text) (path : Text) : Bool :=
  (patterns.filterMap parseGlob?).any fun p => globMatches p path

/-! ## Collecting -/

def sqlFilesBelow (d : Disk) (directory : Place) (base : Text) : List SourceFile :=
  d.files.filterMap fun (p, _) =>
    let below := p.drop directory.length
    if directory.isPrefixOf p && (below.getLast?.any (endsWith ".sql".toList)) then
      some ⟨joinSpelling base (join ['/'] below), p⟩
    else none

def candidateFiles (d : Disk) (input : Text) (place : Place) : List SourceFile :=
  if d.isFile place then [⟨input, place⟩]
  else ((baseSpelling? input).map (sqlFilesBelow d place)).getD []

/-- The files of a run, in order and each once; `none` if the input does not exist. -/
def collectFiles? (d : Disk) (cwd : Place) (input : Text) (exclude : List Text) (limit : Nat) :
    Option (List SourceFile) := do
  let place ← d.resolve? cwd input
  let kept := (candidateFiles d input place).filter fun f =>
    !isExcluded exclude f.name && (d.file? f.place).all (withinLineLimit limit)
  return (kept.mergeSort fun a b => !decide (b.place < a.place)).eraseDups

end SqlOutline
