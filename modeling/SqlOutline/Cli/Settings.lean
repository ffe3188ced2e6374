import SqlOutline.Cli.Disk
import SqlOutline.Toml.Read

/-!
# Settings

A file of settings that is missing or malformed counts as one that says nothing.

## Main definitions

* `Settings`, `ofDocument?` — the settings of a run, and those in a document.
* `load` — those in the nearest file, at the working directory or above it.
-/

namespace SqlOutline

open Text Toml

/-- The settings of a run. -/
structure Settings where
  /-- Leave out the columns of tables. -/
  hideColumns : Bool := false
  /-- Files with more lines are left out. -/
  maxFileLines : Nat := 20000
  /-- Patterns of files that are left out. -/
  exclude : List Text := []
  deriving Repr, DecidableEq

namespace Settings

def fileName : Text := "sqlframe.toml".toList

/-! ## Documents -/

def boolean? : Node → Option Bool
  | .value (.boolean b) => some b
  | _ => none

def natural? : Node → Option Nat
  | .value (.integer n) => if 0 ≤ n then some n.toNat else none
  | _ => none

def text? : Value → Option Text
  | .text t => some t
  | _ => none

def texts? : Node → Option (List Text)
  | .value (.array items) => items.mapM text?
  | _ => none

def fieldOr? {α : Type} (e : Entries) (key : String) (read? : Node → Option α) (value : α) :
    Option α :=
  match e.get? key.toList with
  | none => some value
  | some node => read? node

/-- The settings in a document. Keys that mean nothing are passed over. -/
def ofDocument? (e : Entries) : Option Settings := do
  let s : Settings := {}
  return {
    hideColumns := ← fieldOr? e "hide_sql_table_columns" boolean? s.hideColumns
    maxFileLines := ← fieldOr? e "max_file_lines" natural? s.maxFileLines
    exclude := ← fieldOr? e "exclude" texts? s.exclude }

def ofContent (content : FileContent) : Settings :=
  match contentText content with
  | .ok t => ((readDocument? t).bind ofDocument?).getD {}
  | .error _ => {}

/-! ## Files -/

/-- The nearest file of settings at a place or above it. Behind each place comes the one above it.
-/
def nearest? (d : Disk) : List Place → Option FileContent
  | [] => none
  | p :: ps =>
    match d.file? (p ++ [fileName]) with
    | some content => some content
    | none => nearest? d ps

def placesUp (p : Place) : List Place :=
  ((List.range (p.length + 1)).map fun n => p.take n).reverse

/-- The settings of a run in a working directory: those of a given file, or of the nearest one. -/
def load (d : Disk) (cwd : Place) (path : Option Text) : Settings :=
  let content := match path with
    | some path => (d.resolve? cwd path).bind d.file?
    | none => nearest? d (placesUp cwd)
  (content.map ofContent).getD {}

/-- Settings with what the command line says, which comes first. -/
def override (s : Settings) (hideColumns : Bool) (maxFileLines : Option Nat)
    (exclude : List Text) : Settings where
  hideColumns := s.hideColumns || hideColumns
  maxFileLines := maxFileLines.getD s.maxFileLines
  exclude := if exclude.isEmpty then s.exclude else exclude

end Settings

end SqlOutline
