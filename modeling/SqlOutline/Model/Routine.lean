import SqlOutline.Name
import SqlOutline.Statement.Kind
import SqlOutline.Usage

/-!
# Routines and triggers

## Main definitions

* `Routine`, `Trigger` — the parts of their headers, and what their bodies use.
-/

namespace SqlOutline

open Text

/-! ## Parameters -/

/-- The direction in which a parameter carries a value. -/
inductive Direction where
  | input
  | output
  | both
  deriving Repr, DecidableEq

namespace Direction

def text : Direction → String
  | .input => "IN"
  | .output => "OUT"
  | .both => "INOUT"

def ofKeyword? (t : Text) : Option Direction :=
  match upperString t with
  | "IN" => some .input
  | "OUT" | "OUTPUT" => some .output
  | "INOUT" | "IN OUT" => some .both
  | _ => none

end Direction

/-- A parameter of a routine. -/
structure Parameter where
  name : Option String := none
  dataType : Option String := none
  direction : Option Direction := none
  default : Option String := none
  deriving Repr, DecidableEq

/-! ## Routines -/

/-- The header of a routine. -/
structure RoutineHeader where
  kind : RoutineKind
  /-- The routine is altered rather than created. -/
  alter : Bool
  orReplace : Bool
  name : QualifiedName
  parameters : List Parameter
  returnType : Option String
  deriving Repr, DecidableEq

/-- A routine as it is written: its header and its body. -/
structure Signature extends RoutineHeader where
  body : Option Text
  deriving Repr, DecidableEq

/-- A routine as it is reported: its header and what its body uses. -/
structure Routine extends RoutineHeader where
  usage : Usage
  deriving Repr, DecidableEq

/-! ## Triggers -/

/-- When a trigger fires. -/
inductive Timing where
  | before
  | after
  | insteadOf
  deriving Repr, DecidableEq

namespace Timing

def text : Timing → String
  | .before => "BEFORE"
  | .after => "AFTER"
  | .insteadOf => "INSTEAD OF"

/-- The timing that keywords mean, in any letter case. Whatever mentions `INSTEAD` is that timing,
and `FOR` means `AFTER`. -/
def ofKeywords? (t : Text) : Option Timing :=
  let words := upper (join [' '] (words t))
  if containsSub "INSTEAD".toList words then some .insteadOf
  else
    match String.ofList words with
    | "BEFORE" => some .before
    | "AFTER" | "FOR" => some .after
    | _ => none

end Timing

/-- A trigger on a table. -/
structure Trigger where
  name : String
  table : QualifiedName
  orReplace : Bool := false
  timing : Timing
  events : List String := []
  usage : Usage := {}
  deriving Repr, DecidableEq

end SqlOutline
