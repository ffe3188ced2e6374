import SqlOutline.Definition.Convert
import SqlOutline.Dialect.Detect
import SqlOutline.Routine.Package

/-!
# Routines with what they use

What a body uses is found strictly if possible, and otherwise in the dialect of the routine or its
file.

## Main definitions

* `extractRoutine`, `extractPackage?` — routines and packages with what they use.
-/

namespace SqlOutline

open Text Sql

/-! ## Parsed headers -/

def convertParameter (spelled : Option String) (p : FunctionParameter) : Parameter where
  name := p.name.bind Ident.plain?
  dataType := spelled.or (spelling? p.dataType.text)
  direction := p.mode.bind fun m => Direction.ofKeyword? m.toList
  default := p.default.map (·.text)

/-- The parameters of a parsed function. The types of parameters read from lexemes are kept if there
are as many of them. -/
def convertParameters (spelled : List Parameter) (parsed : List FunctionParameter) :
    List Parameter :=
  if spelled.length = parsed.length then
    List.zipWith (fun s p => convertParameter s.dataType p) spelled parsed
  else parsed.map (convertParameter none)

def Signature.withFunction (s : Signature) (f : FunctionDef) : Signature :=
  { s with
    name := (ObjectName.qualified? f.name).getD s.name
    orReplace := f.orReplace
    parameters := convertParameters s.parameters f.parameters
    returnType := s.returnType.or (f.returns.bind fun t => spelling? t.text) }

/-- The signature of a new function with the header of the parsed statement, if a grammar accepts
it. -/
def Signature.withParsedHeader (s : Signature) (source : Text) : Signature :=
  if s.kind == .function && !s.alter then
    match parseText? .postgresql source with
    | some [⟨.createFunction f, _⟩] => s.withFunction f
    | _ => s
  else s

/-! ## Routines -/

/-- What the body of a routine uses: all or nothing first, and else in the dialect of the routine,
or of its file. `none` if no dialect is known. -/
def routineBodyUsage? (body source : Text) (file : Option Dialect) : Option Usage :=
  match strictUsage body with
  | .ok usage => some usage
  | .error _ => ((detectDialect source).or file).map fun d => bodyUsage d body

def Signature.toRoutine (s : Signature) (usage : Usage) : Routine :=
  { s.toRoutineHeader with usage }

/-- What becomes of the definition of a routine. -/
inductive RoutineOutcome where
  | extracted (routine : Routine)
  /-- The routine is reported without what its body uses. -/
  | headerOnly (routine : Routine) (reason : String)
  /-- The routine is not reported. -/
  | unsupported (reason : String)
  | notARoutine
  deriving Repr, DecidableEq

def RoutineOutcome.routine? : RoutineOutcome → Option Routine
  | .extracted r | .headerOnly r _ => some r
  | .unsupported _ | .notARoutine => none

/-- What becomes of the definition of a routine. -/
def extractRoutine (source : Text) (file : Option Dialect) : RoutineOutcome :=
  match readSignature? source with
  | none => .notARoutine
  | some s =>
    let s := s.withParsedHeader source
    let name := s.name.name
    match s.body with
    | none =>
      if s.alter then .unsupported s!"ALTER of '{name}' carries no body"
      else .headerOnly (s.toRoutine {}) s!"no body found for routine '{name}'"
    | some body =>
      match routineBodyUsage? body source file with
      | some usage => .extracted (s.toRoutine usage)
      | none =>
        .headerOnly (s.toRoutine {})
          s!"body of routine '{name}' did not parse and no dialect markers were found"

/-! ## Packages -/

def Package.routines (p : Package) : List Routine :=
  p.members.map fun s => s.toRoutine ((s.body.map (bodyUsage .plsql)).getD {})

/-- The routines of the body of a package. -/
def extractPackage? (source : Text) : Option (List Routine) :=
  (readPackage? source).map (·.routines)

end SqlOutline
