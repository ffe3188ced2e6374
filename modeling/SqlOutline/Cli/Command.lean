import SqlOutline.Text.Basic

/-!
# The command line

A value of an option is the rest of the same word or the next word; behind two dashes everything is
a plain word. The first fault ends the reading.

## Main definitions

* `Invocation`, `Refusal` — what a command line asks for, or why it is not obeyed.
* `readWords`, `readCommandLine` — words with their options, and the whole line.
-/

namespace SqlOutline

open Text

/-! ## Commands -/

/-- What the program can be told to do. -/
inductive Command where
  /-- Analyse files and write a report on each. -/
  | analyze (input output : Text) (settings : Option Text) (hideColumns : Bool)
      (maxFileLines : Option Nat) (exclude : List Text)
  /-- Print the report on a single file, and perhaps what could not be read in it. -/
  | inspect (file : Text) (diagnostics : Bool)
  deriving Repr, DecidableEq

/-- A command with the options that every command takes. -/
structure Invocation where
  command : Command
  /-- Print no summary. -/
  quiet : Bool
  deriving Repr, DecidableEq

/-- Why the command line is not obeyed. -/
inductive Refusal where
  /-- Help is asked for. -/
  | help
  /-- The version is asked for. -/
  | version
  | unknownOption (word : Text)
  | unexpectedWord (word : Text)
  | unexpectedValue (option : Text)
  | missingValue (option : Text)
  | invalidValue (option value : Text)
  | repeated (option : Text)
  | missingWord (name : Text)
  | missingCommand
  deriving Repr, DecidableEq

namespace Refusal

def message : Refusal → String
  | .help => "help"
  | .version => "version"
  | .unknownOption word => s!"unexpected argument '{String.ofList word}' found"
  | .unexpectedWord word => s!"unexpected argument '{String.ofList word}' found"
  | .unexpectedValue option => s!"no value is allowed for '--{String.ofList option}'"
  | .missingValue option => s!"a value is required for '--{String.ofList option}'"
  | .invalidValue option value =>
    s!"invalid value '{String.ofList value}' for '{String.ofList option}'"
  | .repeated option => s!"the argument '--{String.ofList option}' cannot be used multiple times"
  | .missingWord name => s!"the argument <{String.ofList name}> was not provided"
  | .missingCommand => "a command is required"

end Refusal

/-! ## Options -/

/-- The options. -/
inductive OptionName where
  | help
  | version
  | verbose
  | quiet
  | config
  | hideColumns
  | maxFileLines
  | exclude
  | diagnostics
  deriving Repr, DecidableEq

/-- An option that a command takes. -/
structure OptionSpec where
  name : OptionName
  letter : Option Char
  word : Text
  takesValue : Bool := false
  /-- The option can be given more than once. -/
  repeats : Bool := false
  deriving Repr, DecidableEq

def commonOptions : List OptionSpec :=
  [⟨.help, some 'h', "help".toList, false, false⟩,
    ⟨.version, some 'V', "version".toList, false, false⟩,
    ⟨.verbose, some 'v', "verbose".toList, false, true⟩,
    ⟨.quiet, some 'q', "quiet".toList, false, false⟩]

def analyzeOptions : List OptionSpec :=
  commonOptions ++
    [⟨.config, some 'c', "config".toList, true, false⟩,
      ⟨.hideColumns, none, "hide-sql-table-columns".toList, false, false⟩,
      ⟨.maxFileLines, none, "max-file-lines".toList, true, false⟩,
      ⟨.exclude, some 'e', "exclude".toList, true, true⟩]

def inspectOptions : List OptionSpec :=
  commonOptions ++ [⟨.diagnostics, none, "diagnostics".toList, false, false⟩]

/-! ## Values -/

def naturalValue? (t : Text) : Option Nat :=
  let digits := if t.head? == some '+' then t.drop 1 else t
  if digits.isEmpty || !digits.all Char.isDigit then none
  else
    let n := digits.foldl (fun n c => n * 10 + (c.toNat - 48)) 0
    if n < 0x10000000000000000 then some n else none

def OptionSpec.admits (s : OptionSpec) (value : Text) : Bool :=
  match s.name with
  | .config => !value.isEmpty
  | .maxFileLines => (naturalValue? value).isSome
  | _ => true

/-! ## Words -/

/-- The options and plain words that have been read. -/
structure Words where
  options : List (OptionName × Text) := []
  plain : List Text := []
  deriving Repr, DecidableEq

namespace Words

def has (w : Words) (name : OptionName) : Bool := w.options.any (·.1 == name)

def values (w : Words) (name : OptionName) : List Text :=
  (w.options.filter (·.1 == name)).map (·.2)

def addOption (w : Words) (s : OptionSpec) (value : Text) : Except Refusal Words :=
  match s.name with
  | .help => .error .help
  | .version => .error .version
  | _ =>
    if !s.admits value then .error (.invalidValue s.word value)
    else if !s.repeats && w.has s.name then .error (.repeated s.word)
    else .ok { w with options := w.options ++ [(s.name, value)] }

def addPlain (w : Words) (limit : Nat) (word : Text) : Except Refusal Words :=
  if w.plain.length < limit then
    if word.isEmpty then .error (.invalidValue "path".toList word)
    else .ok { w with plain := w.plain ++ [word] }
  else .error (.unexpectedWord word)

end Words

def optionOfLetter? (specs : List OptionSpec) (c : Char) : Option OptionSpec :=
  specs.find? (·.letter == some c)

/-- The words behind options that are given by letters, and the option that still needs a value. A
value is what follows its letter, perhaps behind an equals sign. -/
def readLetters (specs : List OptionSpec) (word : Text) :
    Words → Text → Except Refusal (Words × Option OptionSpec)
  | w, [] => .ok (w, none)
  | w, c :: t =>
    match optionOfLetter? specs c with
    | none => .error (.unknownOption word)
    | some s =>
      if s.takesValue then
        match t with
        | [] => .ok (w, some s)
        | '=' :: value => (w.addOption s value).map (·, none)
        | value => (w.addOption s value).map (·, none)
      else
        match w.addOption s [] with
        | .ok w => readLetters specs word w t
        | .error e => .error e

/-- The words behind an option that is given by its name, and the option if it still needs a
value. -/
def readName (specs : List OptionSpec) (w : Words) (word : Text) :
    Except Refusal (Words × Option OptionSpec) :=
  let name := word.takeWhile (· != '=')
  let value := word.drop name.length
  match specs.find? (·.word == name) with
  | none => .error (.unknownOption ('-' :: '-' :: word))
  | some s =>
    match s.takesValue, value with
    | true, [] => .ok (w, some s)
    | true, _ :: value => (w.addOption s value).map (·, none)
    | false, [] => (w.addOption s []).map (·, none)
    | false, _ :: _ => .error (.unexpectedValue s.word)

def optionsEnd : Text := ['-', '-']

def looksLikeOption (word : Text) : Bool := word.head? == some '-' && word.length > 1

def readOption (specs : List OptionSpec) (w : Words) (word : Text) :
    Except Refusal (Words × Option OptionSpec) :=
  match word with
  | '-' :: '-' :: name => readName specs w name
  | _ :: letters => readLetters specs word w letters
  | [] => .ok (w, none)

/-- The words of a command that takes at most `limit` plain words. `pending` is an option that still
needs a value; `plainOnly` holds behind the end of options. -/
def readWords (specs : List OptionSpec) (limit : Nat) :
    Words → Option OptionSpec → Bool → List Text → Except Refusal Words
  | w, none, _, [] => .ok w
  | _, some s, _, [] => .error (.missingValue s.word)
  | w, some s, plainOnly, word :: words =>
    if looksLikeOption word then .error (.missingValue s.word)
    else
      match w.addOption s word with
      | .ok w => readWords specs limit w none plainOnly words
      | .error e => .error e
  | w, none, plainOnly, word :: words =>
    if !plainOnly && word == optionsEnd then readWords specs limit w none true words
    else if !plainOnly && looksLikeOption word then
      match readOption specs w word with
      | .ok (w, pending) => readWords specs limit w pending false words
      | .error e => .error e
    else
      match w.addPlain limit word with
      | .ok w => readWords specs limit w none plainOnly words
      | .error e => .error e

/-! ## Command lines -/

def analyzeCommand (w : Words) : Except Refusal Command :=
  match w.plain with
  | [input, output] =>
    .ok (.analyze input output (w.values .config).head? (w.has .hideColumns)
      ((w.values .maxFileLines).head?.bind naturalValue?) (w.values .exclude))
  | [_] => .error (.missingWord "OUTPUT".toList)
  | _ => .error (.missingWord "INPUT".toList)

def inspectCommand (w : Words) : Except Refusal Command :=
  match w.plain with
  | [file] => .ok (.inspect file (w.has .diagnostics))
  | _ => .error (.missingWord "FILE".toList)

def commandNames : List Text := ["analyze".toList, "inspect".toList, "help".toList]

def helpOn : List Text → Refusal
  | [] => .help
  | [name] => if commandNames.contains name then .help else .unexpectedWord name
  | first :: second :: _ =>
    if commandNames.contains first then .unexpectedWord second else .unexpectedWord first

/-- A command by its name, with the words behind it. `quiet` says whether the option has been given
before it. -/
def readCommand (quiet : Bool) (name : Text) (words : List Text) : Except Refusal Invocation := do
  if name == "analyze".toList then
    let w ← readWords analyzeOptions 2 {} none false words
    return ⟨← analyzeCommand w, quiet || w.has .quiet⟩
  else if name == "inspect".toList then
    let w ← readWords inspectOptions 1 {} none false words
    return ⟨← inspectCommand w, quiet || w.has .quiet⟩
  else if name == "help".toList then throw (helpOn words)
  else throw (.unexpectedWord name)

def readCommandLineFrom (w : Words) : List Text → Except Refusal Invocation
  | [] => .error .missingCommand
  | word :: words =>
    if word == optionsEnd then
      .error (words.head?.elim .missingCommand .unexpectedWord)
    else if looksLikeOption word then
      match readOption commonOptions w word with
      | .ok (w, _) => readCommandLineFrom w words
      | .error e => .error e
    else readCommand (w.has .quiet) word words

/-- The command line: options, the name of a command, and its options and words. -/
def readCommandLine (words : List Text) : Except Refusal Invocation := readCommandLineFrom {} words

end SqlOutline
