import SqlOutline.Cli.Run

/-!
# Points in time

## Main definitions

* `civilDate`, `timestamp` — dates and times of day in universal time, with milliseconds.
-/

namespace SqlOutline

/-- The year, month and day of a day that is counted from the first of January 1970. Years are
counted from March on, so that a leap day is the last day of a year. -/
def civilDate (days : Int) : Int × Nat × Nat :=
  let shifted := days + 719468
  let era := shifted.fdiv 146097
  let dayOfEra := (shifted - era * 146097).toNat
  let yearOfEra := (dayOfEra - dayOfEra / 1460 + dayOfEra / 36524 - dayOfEra / 146096) / 365
  let dayOfYear := dayOfEra - (365 * yearOfEra + yearOfEra / 4 - yearOfEra / 100)
  let monthFromMarch := (5 * dayOfYear + 2) / 153
  let day := dayOfYear - (153 * monthFromMarch + 2) / 5 + 1
  let month := if monthFromMarch < 10 then monthFromMarch + 3 else monthFromMarch - 9
  let year := era * 400 + yearOfEra
  (if month ≤ 2 then year + 1 else year, month, day)

def padded (width n : Nat) : String :=
  let digits := toString n
  String.ofList (List.replicate (width - digits.length) '0') ++ digits

/-- A point in time, which is counted in milliseconds from the start of 1970. -/
def timestamp (milliseconds : Int) : String :=
  let (year, month, day) := civilDate (milliseconds.fdiv 86400000)
  let ms := (milliseconds.fmod 86400000).toNat
  padded 4 year.toNat ++ "-" ++ padded 2 month ++ "-" ++ padded 2 day ++ "T"
    ++ padded 2 (ms / 3600000) ++ ":" ++ padded 2 (ms / 60000 % 60) ++ ":"
    ++ padded 2 (ms / 1000 % 60) ++ "." ++ padded 3 (ms % 1000) ++ "Z"

/-- When a run took place that ended at a point in time and took so many milliseconds. -/
def RunTimes.ofMilliseconds (ended : Int) (taken : Nat) : RunTimes :=
  ⟨timestamp (ended - taken), timestamp ended, taken / 1000⟩

end SqlOutline
