import SqlOutline.Text.Basic

/-!
# TOML tables

A table can be opened by a header, come about because something below it is named, or be written in
line, which decides what may be added to it. Nothing is ever defined twice.

## Main definitions

* `Node`, `Entries` — a document as a tree of tables.
* `define?`, `open?` — a key with its value, and the header of a table.
-/

namespace SqlOutline.Toml

/-- A value that is complete where it is written. Numbers with a fraction, times and tables in line
are not told apart. -/
inductive Value where
  | text (t : Text)
  | integer (n : Int)
  | boolean (b : Bool)
  | array (items : List Value)
  | other

/-- How a table came about. -/
inductive Origin where
  /-- It has a header. -/
  | header
  /-- A header names a table below it. -/
  | implied
  /-- A dotted key names something below it. -/
  | dotted
  deriving Repr, DecidableEq

/-- What stands under a key. -/
inductive Node where
  | value (v : Value)
  | table (origin : Origin) (entries : List (Text × Node))
  /-- Tables that share a header, the latest first. -/
  | tables (latest : List (Text × Node)) (earlier : List (List (Text × Node)))

abbrev Entries := List (Text × Node)

namespace Entries

def get? (e : Entries) (key : Text) : Option Node := (e.find? (·.1 == key)).map (·.2)

def set (e : Entries) (key : Text) (node : Node) : Entries :=
  (e.filter (·.1 != key)) ++ [(key, node)]

/-- A table in which `change` is made to the table under a path, which can be below the latest of
several tables. Tables on the way are made if they are missing. A dotted path does not lead into a
table with a header. -/
def changeAt? (dotted : Bool) (change : Origin → Entries → Option Entries) :
    List Text → Origin → Entries → Option Entries
  | [], origin, e => change origin e
  | key :: path, _, e =>
    match get? e key with
    | none => do
      let origin := if dotted then .dotted else .implied
      return set e key (.table origin (← changeAt? dotted change path origin []))
    | some (.value _) => none
    | some (.table origin below) => do
      if dotted && origin == .header then none
      return set e key (.table origin (← changeAt? dotted change path origin below))
    | some (.tables latest earlier) => do
      if dotted then none
      return set e key (.tables (← changeAt? dotted change path .header latest) earlier)

def insertNew? (e : Entries) (key : Text) (v : Value) : Option Entries :=
  if (get? e key).isSome then none else some (set e key (.value v))

/-- A table with a value under a dotted key, which is a path and a last key. Only tables that dotted
keys have made are entered. -/
def define? (e : Entries) (path : List Text) (key : Text) (v : Value) : Option Entries :=
  changeAt? true (fun origin below =>
    if !path.isEmpty && origin != .dotted then none else insertNew? below key v) path .header e

/-- A table with the table opened that a header names. A table that only a header below it has
implied can still be opened. -/
def open? (e : Entries) (path : List Text) (key : Text) : Option Entries :=
  changeAt? false (fun _ below =>
    match get? below key with
    | none => some (set below key (.table .header []))
    | some (.table .implied entries) => some (set below key (.table .header entries))
    | some _ => none) path .header e

/-- A table with one more of the tables opened that share a header. -/
def openNext? (e : Entries) (path : List Text) (key : Text) : Option Entries :=
  changeAt? false (fun _ below =>
    match get? below key with
    | none => some (set below key (.tables [] []))
    | some (.tables latest earlier) => some (set below key (.tables [] (latest :: earlier)))
    | some _ => none) path .header e

def defineBelow? (e : Entries) (header path : List Text) (key : Text) (v : Value) :
    Option Entries :=
  changeAt? false (fun _ below => define? below path key v) header .header e

end Entries

end SqlOutline.Toml
