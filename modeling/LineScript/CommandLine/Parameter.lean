import LineScript.LogLevel

/-!
# Parameters of the command line

What can be given on the command line before the separator, under which names,
and how the help describes it.
-/

namespace LineScript

/-- A thing that the command line can set or ask for. -/
inductive Parameter where
  /-- The program to supervise. -/
  | program
  /-- The script file. -/
  | script
  /-- The configuration file. -/
  | config
  /-- The waiting time for output. -/
  | pollMillis
  /-- The waiting time for a child's end. -/
  | teardownMillis
  /-- How much to log. -/
  | logLevel
  /-- Only to list what would happen. -/
  | dryRun
  /-- To print the help. -/
  | help
  /-- To print the version. -/
  | version
  deriving DecidableEq, Repr

namespace Parameter

/-- All parameters, in the order of the help. -/
def all : List Parameter :=
  [.program, .script, .config, .pollMillis, .teardownMillis, .logLevel, .dryRun, .help, .version]

/-- The letter after a single dash, if there is one. -/
def letter? : Parameter → Option Char
  | .program => some 'p'
  | .script => some 's'
  | .help => some 'h'
  | .version => some 'V'
  | _ => none

/-- The name after two dashes. -/
def name : Parameter → String
  | .program => "program"
  | .script => "script"
  | .config => "config"
  | .pollMillis => "poll-timeout-ms"
  | .teardownMillis => "teardown-timeout-ms"
  | .logLevel => "log-level"
  | .dryRun => "dry-run"
  | .help => "help"
  | .version => "version"

/-- What the help calls the value, if the parameter takes one. -/
def valueName? : Parameter → Option String
  | .program | .script | .config => some "PATH"
  | .pollMillis | .teardownMillis => some "MS"
  | .logLevel => some "LEVEL"
  | _ => none

/-- The parameter of a letter. -/
def ofLetter? (c : Char) : Option Parameter := all.find? fun p => p.letter? = some c

/-- The parameter of a name. -/
def ofName? (text : String) : Option Parameter := all.find? fun p => p.name = text

/-- What the help says in one sentence. -/
def summary : Parameter → String
  | .program => "Program to supervise (path or command name)"
  | .script => "Script file to run"
  | .config => "Optional TOML file with a `[run]` section"
  | .pollMillis => "How long to wait for child output after each forwarded line"
  | .teardownMillis => "Kill the child if it has not exited this long after its pipes close"
  | .logLevel => "Logging level (error, warn, info, debug, trace)"
  | .dryRun => "Classify the script and print what would happen, without starting any process"
  | .help => "Print help"
  | .version => "Print version"

/-- What the long help adds. -/
def details? : Parameter → Option String
  | .script => some "Default: read the script from standard input."
  | .teardownMillis => some "If omitted, teardown waits for the child indefinitely."
  | .logLevel => some "If omitted, `TESTER_LOG` or a default level will be used."
  | _ => none

/-- The values among which to choose. -/
def choices : Parameter → List String
  | .logLevel => LogLevel.all.map LogLevel.name
  | _ => []

/-- The name of a parameter names it. -/
theorem ofName?_name (p : Parameter) : ofName? p.name = some p := by
  cases p <;> rfl

end Parameter

end LineScript
