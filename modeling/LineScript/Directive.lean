import LineScript.Text.Blank
import LineScript.Duration

/-!
# Directives

What one prepared line of a script asks for. The two markers of a skipped block
are recognised by how the line begins, the other keywords by its first word;
the end marker comes before everything else, so that a skipped block cannot
hide its own end. A keyword with unusable arguments is an error with a cause,
and any line without a keyword is text for the child.
-/

namespace LineScript

/-- What a line asks for. -/
inductive Directive where
  /-- Leave the skipped block. -/
  | endSkip
  /-- Nothing: a blank line, a comment, or a line of a skipped block. -/
  | ignored
  /-- Begin a skipped block. -/
  | startSkip
  /-- Set a variable for the next child. -/
  | env (key value : String)
  /-- Forget all variables. -/
  | envClear
  /-- Start a new child. -/
  | restart
  /-- Wait. -/
  | delay (duration : Duration)
  /-- A line for the child's input. -/
  | send (text : String)
  deriving DecidableEq, Repr

/-- Why a keyword's arguments are unusable. -/
inductive FormatError where
  /-- `ENV` without a name and a value; `given` is what stands after the
  keyword, up to the blank after a name. -/
  | envIncomplete (given : String)
  /-- Arguments after a keyword that takes none. -/
  | unexpectedArguments (keyword arguments : String)
  /-- `DELAY` without an argument. -/
  | delayMissing
  /-- An argument of `DELAY` that is no duration. -/
  | delayInvalid (argument : String) (cause : DurationError)
  deriving DecidableEq, Repr

/-- The wording of an unusable directive. -/
def FormatError.message : FormatError → String
  | .envIncomplete given => s!"ENV needs a key and a value (got `ENV {given}`)"
  | .unexpectedArguments keyword arguments =>
    s!"{keyword} takes no arguments (got `{arguments}`)"
  | .delayMissing => "DELAY needs a number of seconds"
  | .delayInvalid argument cause =>
    let reason := cause.message
    s!"invalid DELAY value '{argument}': {reason}"

namespace Directive

open Text

/-- A line that begins like this ends a skipped block. -/
def endSkipMarker : String := "END_SKIP"

/-- A line that begins like this begins a skipped block. -/
def startSkipMarker : String := "START_SKIP"

/-- Whether a line begins with a marker. -/
def beginsWith (marker : String) (line : List Char) : Bool := marker.toList.isPrefixOf line

/-- To begin with a marker is to have its text in front. -/
theorem beginsWith_iff {marker : String} {line : List Char} :
    beginsWith marker line = true ↔ marker.toList <+: line := List.isPrefixOf_iff_prefix

/-- The first word of a line and the rest after the blanks that follow it. -/
def splitKeyword (line : List Char) : List Char × List Char :=
  match splitAtBlank? line with
  | some (keyword, rest) => (keyword, trimStart rest)
  | none => (line, [])

/-- Reads the name and the value after `ENV`. -/
def parseEnv (arguments : List Char) : Except FormatError Directive :=
  match splitAtBlank? arguments with
  | none => .error (.envIncomplete (String.ofList arguments))
  | some (key, rest) =>
    match trimStart rest with
    | [] => .error (.envIncomplete (String.ofList key))
    | value => .ok (.env (String.ofList key) (String.ofList value))

/-- A directive whose keyword stands alone. -/
def withoutArguments (keyword : String) (directive : Directive) (arguments : List Char) :
    Except FormatError Directive :=
  match arguments with
  | [] => .ok directive
  | _ :: _ => .error (.unexpectedArguments keyword (String.ofList arguments))

/-- Reads the argument of `DELAY`. -/
def parseDelay (argument : List Char) : Except FormatError Duration :=
  match argument with
  | [] => .error .delayMissing
  | _ :: _ =>
    match Duration.parse argument with
    | .ok duration => .ok duration
    | .error cause => .error (.delayInvalid (String.ofList argument) cause)

/-- Reads a line by its first word. -/
def ofWords (line : List Char) : Except FormatError Directive :=
  let (keyword, arguments) := splitKeyword line
  if keyword = "ENV".toList then parseEnv arguments
  else if keyword = "ENVCLEAR".toList then withoutArguments "ENVCLEAR" .envClear arguments
  else if keyword = "RESTART".toList then withoutArguments "RESTART" .restart arguments
  else if keyword = "DELAY".toList then (parseDelay arguments).map .delay
  else .ok (.send (String.ofList line))

/-- What a line asks for, inside or outside a skipped block. -/
def classifyChars (line : List Char) (skipping : Bool) : Except FormatError Directive :=
  if beginsWith endSkipMarker line then .ok .endSkip
  else if skipping || line.isEmpty || line.head? == some '#' then .ok .ignored
  else if beginsWith startSkipMarker line then .ok .startSkip
  else ofWords line

/-- What a line asks for, inside or outside a skipped block. -/
def classify (line : String) (skipping : Bool) : Except FormatError Directive :=
  classifyChars line.toList skipping

/-- The line that writes a directive. An ignored line is written as an empty one,
and a wait in seconds, as in a listing. -/
def line : Directive → String
  | .endSkip => endSkipMarker
  | .ignored => ""
  | .startSkip => startSkipMarker
  | .env key value => "ENV " ++ key ++ " " ++ value
  | .envClear => "ENVCLEAR"
  | .restart => "RESTART"
  | .delay duration => "DELAY " ++ duration.render Duration.listingLayout
  | .send text => text

/-- The end marker is seen inside a skipped block, and by its beginning only. -/
example : classify "END_SKIP_NOT" true = .ok .endSkip := rfl

end Directive

end LineScript
