import LineScript.Fault

/-!
# Errors of a run

Why a script could not be run, or was stopped. An error that comes from the
system keeps the system's failure as its source. A directive that cannot be
used is not fatal: it is reported and passed over.
-/

namespace LineScript

/-- What can go wrong between reading the options and the end of a script. -/
inductive RunError where
  /-- The child for a line could not be started. -/
  | spawn (line : Nat) (directive program : String) (source : Fault)
  /-- A line could not be handed to the child. -/
  | write (line : Nat) (directive : String) (source : Fault)
  /-- A directive cannot be used. -/
  | scriptFormat (line : Nat) (reason : String)
  /-- The options make no sense. -/
  | config (reason : String)
  /-- Reading the script, writing the transcript or ending a child failed. -/
  | io (source : Fault)
  /-- A configuration file is not in its format. -/
  | toml (detail : String)
  /-- Anything else. -/
  | other (text : String)
  deriving DecidableEq, Repr

namespace RunError

/-- The wording of an error. -/
def message : RunError → String
  | .spawn line directive program _ => s!"line {line}: `{directive}` could not start '{program}'"
  | .write line directive _ => s!"line {line}: writing `{directive}` to the child's stdin failed"
  | .scriptFormat line reason => s!"line {line}: {reason}"
  | .config reason => s!"Configuration error: {reason}"
  | .io source =>
    let text := source.message
    s!"IO error: {text}"
  | .toml detail => s!"TOML parsing error: {detail}"
  | .other text => text

/-- The system failure behind an error. -/
def source? : RunError → Option Fault
  | .spawn _ _ _ source => some source
  | .write _ _ source => some source
  | .io source => some source
  | _ => none

/-- The wording of the cause behind an error. -/
def cause? : RunError → Option String
  | .toml detail => some detail
  | error => error.source?.map Fault.message

/-- Whether the error ends a run. -/
def isFatal : RunError → Bool
  | .scriptFormat .. => false
  | _ => true

/-- A text whose lines after the first are indented by four columns. -/
def indentLines (text : String) : String :=
  String.ofList (text.toList.flatMap fun c =>
    if c = '\n' then '\n' :: List.replicate 4 ' ' else [c])

/-- An error as it is shown at the end of a run: its wording, and the wording
of its cause below a heading. -/
def display (error : RunError) : String :=
  match error.cause? with
  | none => error.message
  | some cause => error.message ++ "\n\nCaused by:\n    " ++ indentLines cause

end RunError

end LineScript
