import LineScript.CommandLine.Parameter
import LineScript.Options

/-!
# The command line

Arguments are read from left to right. What follows a separator are the
arguments of the program. A parameter that needs a value takes it from its own
argument, or from the next one if that does not look like a parameter. A value
is looked at only when the next parameter, the first argument of the program or
the end is reached; so an argument that nobody knows is reported before a value
that stands to the left of it.
-/

namespace LineScript

/-- What is wrong with a command line. -/
inductive UsageError where
  /-- A value is missing, empty where it may not be, or none of the choices. -/
  | invalidValue
  /-- An argument is not known. -/
  | unknownArgument
  /-- A parameter is given twice. -/
  | argumentConflict
  /-- A parameter without a value is given one. -/
  | tooManyValues
  /-- A value is not of its kind. -/
  | valueValidation
  /-- No program is given. -/
  | missingRequiredArgument
  deriving DecidableEq, Repr

/-- The wording of a refusal. -/
def UsageError.message : UsageError → String
  | .invalidValue => "a value is missing or not allowed"
  | .unknownArgument => "unexpected argument found"
  | .argumentConflict => "an argument cannot be used multiple times"
  | .tooManyValues => "a value was given to an argument that takes none"
  | .valueValidation => "a value is not a number in range"
  | .missingRequiredArgument => "the required argument --program <PATH> was not provided"

/-- Why a command line asks for no run. -/
inductive Stop where
  /-- It cannot be understood. -/
  | usage (error : UsageError)
  /-- It asks for the help, the long one or the short one. -/
  | help (long : Bool)
  /-- It asks for the version. -/
  | version
  deriving DecidableEq, Repr

/-- What a command line says. -/
structure CommandLine where
  /-- The program to supervise. -/
  program : String
  /-- The script file; without one the script is read from standard input. -/
  script : Option String := none
  /-- The configuration file. -/
  config : Option String := none
  /-- What replaces the options of the configuration file. -/
  overrides : Overrides := {}
  /-- How much to log. -/
  logLevel : Option LogLevel := none
  /-- Whether only to list what would happen. -/
  dryRun : Bool := false
  deriving DecidableEq, Repr

namespace CommandLine

/-- The separator before the arguments of the program. -/
def separator : String := "--"

/-- What an argument looks like. -/
inductive Shape where
  /-- Two dashes, a name, and perhaps a value after an equals sign. -/
  | long (name : String) (value : Option String)
  /-- A dash and letters. -/
  | short (letters : List Char)
  /-- Anything else. -/
  | word

/-- The shape of an argument that is not the separator. A lone dash is a word. -/
def Shape.of (text : String) : Shape :=
  match text.toList with
  | '-' :: '-' :: rest =>
    match rest.span (· ≠ '=') with
    | (name, []) => .long (String.ofList name) none
    | (name, _ :: value) => .long (String.ofList name) (some (String.ofList value))
  | '-' :: c :: rest => .short (c :: rest)
  | _ => .word

/-- A command line as far as it was read. -/
structure Draft where
  /-- What it says so far. -/
  line : CommandLine := ⟨"", none, none, {}, none, false⟩
  /-- The parameters it has set. -/
  given : List Parameter := []
  /-- The parameter read last and its value, neither looked at yet. -/
  pending : Option (Parameter × Option String) := none
  /-- Whether the separator was passed. -/
  trailing : Bool := false

/-- Reading that may stop. -/
abbrev Reading := Except Stop

/-- Stops at a fault. -/
def fail {α : Type} (error : UsageError) : Reading α := .error (.usage error)

/-- A number of milliseconds: digits after an optional plus sign, below
`2 ^ 64`. -/
def millis (text : String) : Reading Nat :=
  let digits := match text.toList with
    | '+' :: rest => rest
    | chars => chars
  let value := Literal.natOf 0 digits
  if digits ≠ [] ∧ digits.all (fun c => (Literal.digit? c).isSome) ∧ value < Nat.pow 2 64 then
    return value
  else fail .valueValidation

/-- A file name, which may not be empty. -/
def path (text : String) : Reading String :=
  if text = "" then fail .invalidValue else return text

/-- A command line with a parameter set to a value. -/
def assign (line : CommandLine) (value : String) : Parameter → Reading CommandLine
  | .program => return { line with program := value }
  | .script => return { line with script := some (← path value) }
  | .config => return { line with config := some (← path value) }
  | .pollMillis => do
    let n ← millis value
    return { line with overrides := { line.overrides with pollMillis := some n } }
  | .teardownMillis => do
    let n ← millis value
    return { line with overrides := { line.overrides with teardownMillis := some n } }
  | .logLevel =>
    match LogLevel.ofName? value with
    | none => fail .invalidValue
    | some level => return { line with logLevel := some level }
  | .dryRun => return { line with dryRun := true }
  | .help | .version => return line

namespace Draft

/-- Sets a parameter. A missing value is reported before a repetition, and
that before a bad value. -/
def set (draft : Draft) (p : Parameter) (value : Option String) : Reading Draft := do
  let some text := if p.valueName?.isSome then value else some "" | fail .invalidValue
  if p ∈ draft.given then fail .argumentConflict
  else return { draft with line := ← draft.line.assign text p, given := p :: draft.given }

/-- Looks at the parameter read last. -/
def settle (draft : Draft) : Reading Draft :=
  match draft.pending with
  | none => return draft
  | some (p, value) => { draft with pending := none }.set p value

/-- Reads a parameter with the value of its own argument, if there is one. -/
def meet (draft : Draft) (p : Parameter) (value : Option String) : Reading Draft := do
  let draft ← draft.settle
  match p, value with
  | .help, _ => .error (.help false)
  | .version, _ => .error .version
  | .dryRun, _ => draft.set .dryRun none
  | p, none => return { draft with pending := some (p, none) }
  | p, some text => draft.set p (some text)

/-- Reads letters after a dash. The first that takes a value takes the rest of
the argument, without an equals sign before it. -/
def meetLetters (draft : Draft) : List Char → Reading Draft
  | [] => return draft
  | c :: rest =>
    match Parameter.ofLetter? c with
    | none => fail .unknownArgument
    | some p =>
      if p.valueName?.isSome then
        match rest with
        | [] => draft.meet p none
        | '=' :: value => draft.meet p (some (String.ofList value))
        | value => draft.meet p (some (String.ofList value))
      else do
        let draft ← draft.meet p none
        draft.meetLetters rest

/-- Reads a name after two dashes. -/
def meetName (draft : Draft) (name : String) (value : Option String) : Reading Draft :=
  match Parameter.ofName? name with
  | none => fail .unknownArgument
  | some p =>
    if p.valueName?.isNone ∧ value.isSome then fail .tooManyValues
    else if p = .help then do
      let _ ← draft.settle
      .error (.help true)
    else draft.meet p value

/-- Reads an argument. -/
def step (draft : Draft) (text : String) : Reading Draft :=
  if draft.trailing then do
    let draft ← draft.settle
    let overrides := draft.line.overrides
    let overrides := { overrides with args := overrides.args ++ [text] }
    return { draft with line := { draft.line with overrides } }
  else if text = separator then return { draft with trailing := true }
  else
    match Shape.of text with
    | .long name value => draft.meetName name value
    | .short letters => draft.meetLetters letters
    | .word =>
      match draft.pending with
      | some (p, none) => return { draft with pending := some (p, some text) }
      | _ => fail .unknownArgument

end Draft

/-- Reads a command line, without the program's own name. -/
def read (arguments : List String) : Reading CommandLine := do
  let draft ← arguments.foldlM Draft.step {}
  let draft ← draft.settle
  if .program ∈ draft.given then return draft.line else fail .missingRequiredArgument

end CommandLine

end LineScript
