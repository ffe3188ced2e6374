import SqlOutline.Analysis
import SqlOutline.Cli.Command
import SqlOutline.Cli.Discovery
import SqlOutline.Cli.Settings
import SqlOutline.Model.Document

/-!
# Runs

An analysis of files writes one record to a line: what the run is about, for each file the report on
it or why it could not be read, and how many files there were of either kind.

## Main definitions

* `fileRecords` — the records of files, with the counts.
* `run` — what a command line does on a snapshot of files.
-/

namespace SqlOutline

open Text Json

/-! ## Records -/

/-- When a run took place, as it is reported. -/
structure RunTimes where
  startedAt : String
  endedAt : String
  seconds : Nat
  deriving Repr, DecidableEq

/-- A line that is written. -/
inductive Record where
  | run (inputPath : Text) (totalFiles : Nat)
  | analysis (analysis : FileAnalysis)
  | error (file : Text) (reason : String)
  | done (filesAnalyzed filesWithErrors : Nat)
  deriving Repr, DecidableEq

namespace Record

def document (times : RunTimes) : Record → Json
  | .run inputPath totalFiles =>
    object [field "kind" (.str "run"), field "started_at" (.str times.startedAt),
      field "input_path" (.str (String.ofList inputPath)), field "total_files" (.nat totalFiles)]
  | .analysis a => a.document
  | .error file reason =>
    object [field "kind" (.str "error"), field "file" (.str (String.ofList file)),
      field "language" (.str "sql"), field "error" (.str reason)]
  | .done filesAnalyzed filesWithErrors =>
    object [field "kind" (.str "done"), field "ended_at" (.str times.endedAt),
      field "files_analyzed" (.nat filesAnalyzed),
      field "files_with_errors" (.nat filesWithErrors),
      field "duration_seconds" (.nat times.seconds)]

end Record

/-- Records as they are written, one to a line. -/
def recordsText (times : RunTimes) (rs : List Record) : String :=
  String.join (rs.map fun r => (r.document times).compact ++ "\n")

/-! ## Analyses -/

/-- How many files have been analysed so far, and how many could not be read. -/
structure RunSummary where
  filesAnalyzed : Nat := 0
  filesWithErrors : Nat := 0
  deriving Repr, DecidableEq

/-- The records of files, read behind those that are counted in `s`, and the counts behind them. An
analysis that breaks off leaves no counts. -/
def fileRecords (hideColumns : Bool) (s : RunSummary) :
    List (Text × FileContent) → List Record × Option RunSummary
  | [] => ([], some s)
  | (name, content) :: files =>
    match contentText content with
    | .ok source =>
      match analyzeFile? (String.ofList name) source hideColumns with
      | none => ([], none)
      | some (a, _) =>
        let s := { s with filesAnalyzed := s.filesAnalyzed + 1 }
        let (rs, summary) := fileRecords hideColumns s files
        (.analysis a :: rs, summary)
    | .error reason =>
      let s := { s with filesWithErrors := s.filesWithErrors + 1 }
      let (rs, summary) := fileRecords hideColumns s files
      (.error name reason :: rs, summary)

/-- The records of an analysis of files, and its counts if it has not broken off. -/
def analyzeFiles (input : Text) (hideColumns : Bool) (files : List (Text × FileContent)) :
    List Record × Option RunSummary :=
  let first := Record.run input files.length
  match fileRecords hideColumns {} files with
  | (rs, some s) => (first :: rs ++ [.done s.filesAnalyzed s.filesWithErrors], some s)
  | (rs, none) => (first :: rs, none)

/-! ## Outcomes -/

/-- What a run prints and writes, and how it ends. -/
structure Outcome where
  /-- How the run ends: 0 if all is well, 1 if files could not be read, 2 at a fault, and 101 if an
  analysis breaks off. -/
  exitCode : Nat
  /-- What is printed. -/
  printed : String := ""
  /-- Messages beside what is printed. -/
  messages : List String := []
  /-- What could not be read in a file. -/
  diagnostics : List Diagnostic := []
  /-- The file that is written, with its records. -/
  written : Option (Place × List Record) := none
  deriving Repr, DecidableEq

namespace Outcome

def fault (message : String) : Outcome := { exitCode := 2, messages := ["Error: " ++ message] }

def brokenOff : Outcome := { exitCode := 101, messages := ["Error: trigger headers overlap"] }

end Outcome

/-- The message with the counts of an analysis of files. -/
def summaryLine (output : Text) (s : RunSummary) : String :=
  s!"Analyzed {s.filesAnalyzed} file(s), {s.filesWithErrors} error(s); output written to "
    ++ String.ofList output

/-- Analyses the files that an input stands for. The output is made empty before any file is read,
so an output that is among the files is read as an empty one. -/
def runAnalyze (d : Disk) (cwd : Place) (input output : Text) (s : Settings) (quiet : Bool) :
    Outcome :=
  match collectFiles? d cwd input s.exclude s.maxFileLines with
  | none => .fault ("Input path does not exist: " ++ String.ofList input)
  | some files =>
    match d.writable? cwd output with
    | none => .fault ("cannot write " ++ String.ofList output)
    | some target =>
      let d := d.write target (.ok .empty)
      let contents := files.map fun f => (f.name, d.contentAt f.place)
      match analyzeFiles input s.hideColumns contents with
      | (records, some summary) =>
        { exitCode := if summary.filesWithErrors > 0 then 1 else 0
          messages := if quiet then [] else [summaryLine output summary]
          written := some (target, records) }
      | (records, none) => { Outcome.brokenOff with written := some (target, records) }

def runInspect (d : Disk) (cwd : Place) (path : Text) (diagnostics : Bool) : Outcome :=
  match ((d.resolve? cwd path).bind d.file?).map contentText with
  | none => .fault ("cannot read " ++ String.ofList path)
  | some (.error reason) => .fault reason
  | some (.ok source) =>
    match analyzeFile? (String.ofList path) source false with
    | none => .brokenOff
    | some (a, found) =>
      { exitCode := 0
        printed := a.document.pretty ++ "\n"
        diagnostics := if diagnostics then found else [] }

def runCommand (d : Disk) (cwd : Place) (i : Invocation) : Outcome :=
  match i.command with
  | .analyze input output settings hideColumns maxFileLines exclude =>
    let s := (Settings.load d cwd settings).override hideColumns maxFileLines exclude
    runAnalyze d cwd input output s i.quiet
  | .inspect file diagnostics => runInspect d cwd file diagnostics

def usage : String :=
  "Extract tables, routines, triggers and their references from SQL files\n\n"
    ++ "Usage: sqlframe [OPTIONS] <COMMAND>\n\n"
    ++ "Commands:\n"
    ++ "  analyze <INPUT> <OUTPUT>  Analyze SQL files and write one JSON object per file\n"
    ++ "  inspect <FILE>            Print the analysis of one file as pretty JSON\n"
    ++ "  help                      Print this message\n\n"
    ++ "Options:\n"
    ++ "  -v, --verbose                 Enable verbose output\n"
    ++ "  -q, --quiet                   Suppress non-error output\n"
    ++ "  -h, --help                    Print help\n"
    ++ "  -V, --version                 Print version\n\n"
    ++ "Options of analyze:\n"
    ++ "  -c, --config <FILE>           Configuration file\n"
    ++ "      --hide-sql-table-columns  Leave column listings out of table operations\n"
    ++ "      --max-file-lines <N>      Skip files with more lines than this\n"
    ++ "  -e, --exclude <GLOB>          Glob patterns of files to skip\n\n"
    ++ "Options of inspect:\n"
    ++ "      --diagnostics             Also render skipped and partly read statements\n"

def refuse (r : Refusal) : Outcome :=
  match r with
  | .help => { exitCode := 0, printed := usage }
  | .version => { exitCode := 0, printed := "sqlframe 0.1.0\n" }
  | r => { exitCode := 2, messages := ["error: " ++ r.message] }

/-- Obeys a command line in a working directory. -/
def run (d : Disk) (cwd : Place) (words : List Text) : Outcome :=
  match readCommandLine words with
  | .error r => refuse r
  | .ok i => runCommand d cwd i

end SqlOutline
