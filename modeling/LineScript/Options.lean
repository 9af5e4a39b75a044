import LineScript.Duration
import LineScript.RunError
import LineScript.Text.Utf8
import LineScript.Toml.Document
import LineScript.Toml.Range

/-!
# Options of a run

How long to wait for output, how long to wait for a child's end, and the
arguments of the program. They come from a configuration file or are the
defaults, flags of the command line replace them one by one, and only the
result is checked: a timeout of zero is refused, wherever it came from.
-/

namespace LineScript

/-- The options of a run. -/
structure Options where
  /-- How long to wait for output after each line, in milliseconds. -/
  pollMillis : Nat := 100
  /-- How long to wait for a child whose pipes are closed before it is killed,
  in milliseconds; without a value, forever. -/
  teardownMillis : Option Nat := none
  /-- The arguments of the program. -/
  args : List String := []
  deriving DecidableEq, Repr

/-- What the command line says about the options. -/
structure Overrides where
  /-- Replaces the waiting time for output. -/
  pollMillis : Option Nat := none
  /-- Replaces the waiting time for a child's end. -/
  teardownMillis : Option Nat := none
  /-- Replaces the arguments, if there are any. -/
  args : List String := []
  deriving DecidableEq, Repr

/-- Why options are refused. -/
inductive OptionsError where
  /-- The waiting time for output is zero. -/
  | zeroPoll
  /-- The waiting time for a child's end is zero. -/
  | zeroTeardown
  deriving DecidableEq, Repr

/-- The wording of a refusal. -/
def OptionsError.message : OptionsError → String
  | .zeroPoll => "[run].poll_timeout_ms must be >= 1 (got 0)"
  | .zeroTeardown => "[run].teardown_timeout_ms must be >= 1 when set (got 0)"

namespace Options

/-- The waiting time for output. -/
def pollTimeout (options : Options) : Duration := .ofMillis options.pollMillis

/-- The waiting time for a child's end. -/
def teardownTimeout (options : Options) : Option Duration :=
  options.teardownMillis.map Duration.ofMillis

/-- Refuses a waiting time of zero; that for output is looked at first. -/
def check (options : Options) : Except OptionsError Options :=
  if options.pollMillis = 0 then .error .zeroPoll
  else if options.teardownMillis = some 0 then .error .zeroTeardown
  else .ok options

/-- The options with what the command line says in their place. -/
def override (options : Options) (flags : Overrides) : Options where
  pollMillis := flags.pollMillis.getD options.pollMillis
  teardownMillis := flags.teardownMillis.or options.teardownMillis
  args := if flags.args = [] then options.args else flags.args

/-! ## Configuration files -/

/-- A whole number of 64 bits without a sign. -/
def word? : Toml.Value → Option Nat
  | .scalar (.integer n) => if 0 ≤ n ∧ n.toNat < Nat.pow 2 64 then some n.toNat else none
  | _ => none

/-- A string. -/
def string? : Toml.Value → Option String
  | .string text => some text
  | _ => none

/-- A list of strings. -/
def strings? : Toml.Value → Option (List String)
  | .array items => items.mapM string?
  | _ => none

/-- The options with one entry of the `run` table taken in. An entry without a
meaning is passed over. -/
def take (options : Options) (key : String) (value : Toml.Value) : Option Options :=
  match key with
  | "poll_timeout_ms" => (word? value).map fun n => { options with pollMillis := n }
  | "teardown_timeout_ms" => (word? value).map fun n => { options with teardownMillis := some n }
  | "args" => (strings? value).map fun args => { options with args }
  | _ => if value.inRange then some options else none

/-- The keys of the `run` table, in the order of a `run` list. -/
def keys : List String := ["poll_timeout_ms", "teardown_timeout_ms", "args"]

/-- The options of a `run` value: a table, or a list that gives the values in
the order of the keys. A date or time says nothing. -/
def ofRun? : Toml.Value → Option Options
  | .table _ entries => entries.foldlM (fun options (key, value) => options.take key value) {}
  | .array items =>
    (keys.zip items).foldlM (fun options (key, value) => options.take key value) {}
  | .scalar .moment => some {}
  | _ => none

/-- The options of a document: those of its `run` value, or the defaults. -/
def ofEntries? (entries : Toml.Entries) : Option Options :=
  entries.foldlM (fun options (key, value) =>
    if key = "run" then ofRun? value
    else if value.inRange then some options else none) {}

/-- Reads the options of a configuration file, unchecked. -/
def ofFile (content : Bytes) : Except RunError Options :=
  match Utf8.decodeString content with
  | .error _ => .error (.io .notText)
  | .ok text =>
    match Toml.Document.read? text with
    | none => .error (.toml "the document is not well formed")
    | some entries =>
      match ofEntries? entries with
      | none => .error (.toml "the options are not of their kind")
      | some options => .ok options

/-- The options, or the error of their refusal. -/
def checked (options : Options) : Except RunError Options :=
  options.check.mapError fun reason => .config reason.message

/-- The options of a run: those of the file, if there is one, with what the
command line says in their place, checked. -/
def resolve (file : Option (Except RunError Options)) (flags : Overrides) :
    Except RunError Options := do
  let options ← file.getD (.ok {})
  (options.override flags).checked

end Options

end LineScript
