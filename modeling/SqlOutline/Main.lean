import SqlOutline.Cli.Clock

/-!
# The program

## Main definitions

* `loadDisk` — the snapshot of the files that the command line speaks of.
* `obey` — printing what a run prints and writing what it writes.
-/

namespace SqlOutline

open Text

def rootSpelling (p : Place) : String := String.ofList ('/' :: join ['/'] p)

def placesOnWay (cwd : Place) (t : Text) : List Place :=
  let step (p : Place) (name : Text) : Place :=
    if name == [] || name == ['.'] then p
    else if name == ['.', '.'] then p.dropLast
    else p ++ [name]
  let start := if t.head? == some '/' then [] else cwd
  ((Disk.namesOf t).foldl (fun ps name => step (ps.head?.getD start) name :: ps) [start]).reverse

def readContent (p : Place) : IO FileContent := do
  try return .ok (← IO.FS.readBinFile (rootSpelling p))
  catch e => return .error (toString e)

def loadPath (cwd : Place) (t : Text) (d : Disk) : IO Disk := do
  let here ← IO.currentDir
  let mut d := d
  for p in placesOnWay cwd t do
    let path := here / rootSpelling p
    if ← path.isDir then d := { d with directories := p :: d.directories }
    else if ← path.pathExists then d := d.write p (← readContent p)
  return d

/-- A snapshot with the directory at a place and all that is below it, of files only those whose
names end in `.sql`. -/
partial def loadTree (p : Place) (d : Disk) : IO Disk := do
  let path := (← IO.currentDir) / rootSpelling p
  if ← path.isDir then
    let mut d := { d with directories := p :: d.directories }
    for entry in (← path.readDir) do
      d ← loadTree (p ++ [entry.fileName.toList]) d
    return d
  else if p.getLast?.any (endsWith ".sql".toList) then return d.write p (← readContent p)
  else return d

def loadSettings (places : List Place) (d : Disk) : IO Disk := do
  let here ← IO.currentDir
  let mut d := d
  for p in places do
    let p := p ++ [Settings.fileName]
    let path := here / rootSpelling p
    if (← path.pathExists) && !(← path.isDir) then d := d.write p (← readContent p)
  return d

def loadDisk (cwd : Place) : Command → IO Disk
  | .analyze input output settings _ _ _ => do
    let d ← loadPath cwd output {}
    let d ← match settings with
      | some path => loadPath cwd path d
      | none => loadSettings (Settings.placesUp cwd) d
    let d ← loadPath cwd input d
    match d.resolve? cwd input with
    | some p => if d.isDirectory p then loadTree p d else return d
    | none => return d
  | .inspect file _ => loadPath cwd file {}

def diagnosticLine (d : Diagnostic) : String :=
  let place := match d.span with
    | some s => s!" [{s.line}:{s.column}]"
    | none => ""
  d.kind.label ++ " " ++ d.message ++ place

def writeRecords (p : Place) (taken : Nat) (records : List Record) : IO Unit := do
  let path := (← IO.currentDir) / rootSpelling p
  IO.FS.writeFile path ""
  let now := (← path.metadata).modified
  let times := RunTimes.ofMilliseconds (now.sec * 1000 + now.nsec.toNat / 1000000) taken
  IO.FS.writeFile path (recordsText times records)

def obey (words : List Text) : IO UInt32 := do
  let cwd := (Disk.namesOf (← IO.currentDir).toString.toList).filter (!·.isEmpty)
  let started ← IO.monoMsNow
  let d ← match readCommandLine words with
    | .ok i => loadDisk cwd i.command
    | .error _ => pure {}
  let outcome := run d cwd words
  match outcome.written with
  | some (p, records) =>
    try writeRecords p ((← IO.monoMsNow) - started) records
    catch e =>
      IO.eprintln s!"Error: {e}"
      return 2
  | none => pure ()
  IO.print outcome.printed
  for diagnostic in outcome.diagnostics do
    IO.eprintln (diagnosticLine diagnostic)
  for message in outcome.messages do
    IO.eprintln message
  return outcome.exitCode.toUInt32

end SqlOutline

def main (args : List String) : IO UInt32 := SqlOutline.obey (args.map (·.toList))
