import LineScript.CommandLine.Help
import LineScript.DryRun
import LineScript.Host.Processes
import LineScript.Log
import LineScript.Options.File
import LineScript.Script.File

/-!
# Invocations

A call of the program from its arguments to its exit code. First the options
are put together, then the script is opened, and only then anything is run or
listed; the first of these that fails decides how the call ends. Nothing is
logged before the arguments were understood, for they say how much to log.
-/

namespace LineScript

/-- How a call of the program ends. -/
inductive Conclusion where
  /-- A text about the program was asked for. -/
  | shown (text : String)
  /-- The arguments cannot be understood. -/
  | refused (error : UsageError)
  /-- The script could not be run, or was stopped. -/
  | failed (error : RunError)
  /-- The script was carried out, or listed. -/
  | finished (report : Report)
  deriving DecidableEq, Repr

namespace Conclusion

/-- The exit code of the program. -/
def exitCode : Conclusion → Nat
  | .shown _ | .finished _ => 0
  | .refused _ => 2
  | .failed _ => 1

/-- What the program says last, beside its output. -/
def farewell? : Conclusion → Option String
  | .refused error => some ("error: " ++ error.message ++ "\n")
  | .failed error => some ("tester error: " ++ error.display ++ "\n")
  | _ => none

end Conclusion

/-- What a call of the program leaves behind. -/
structure Completion where
  /-- How it ended. -/
  conclusion : Conclusion
  /-- What it wrote to its output. -/
  output : Bytes := []
  /-- What it logged. -/
  log : List LogRecord := []

/-- A call of the program, and all that it depends on. -/
structure Invocation where
  /-- The arguments. -/
  arguments : List String
  /-- The environment variable that says how much to log, if it is set. -/
  logSetting : Option String
  /-- What stands on the input. -/
  input : Bytes
  /-- The files. -/
  files : FileTree
  /-- The working directory. -/
  directory : Location

namespace Invocation

/-- How many polls one drain makes at most. -/
def patience : Nat := 1000000

/-- The error of a run whose child never stops printing. -/
def endless : RunError := .other "the output of the child does not end"

/-- The error of a stop, if there was one. -/
def conclude : Outcome → Conclusion
  | .finished report => .finished report
  | .failed error => .failed error
  | .unfinished => .failed endless

/-- Lists a script. -/
def listScript (script : Script) : Completion :=
  let (result, sink) := DryRun.run LimitedSink.sink script {}
  let conclusion : Conclusion :=
    match result with
    | .ok report => .finished report
    | .error error => .failed error
  ⟨conclusion, sink.written, LogRecord.ofLines {} script.lines⟩

/-- Carries out a script with children on a machine. -/
def runScript (call : Invocation) (program : String) (options : Options) (script : Script) :
    Completion :=
  let launch : Launch :=
    ⟨program, options.args, call.directory, options.teardownTimeout⟩
  let runner : Runner ProcessState LimitedSink :=
    ⟨ProcessState.host launch, LimitedSink.sink, options.pollTimeout, patience⟩
  let machine : Machine := { files := call.files }
  let (outcome, s) := runner.run script { host := { machine }, sink := {} }
  let read := script.lines.take s.report.lines
  let started : LogRecord := ⟨.info, "script run started"⟩
  ⟨conclude outcome, s.sink.written,
    started :: LogRecord.ofLines {} read ++ s.events.flatMap LogRecord.ofEvent⟩

/-- The script that a command line names, and what is logged when it is
opened. -/
def script? (call : Invocation) (line : CommandLine) : Except Fault (Script × LogRecord) :=
  match line.script with
  | some path => do
    let script ← Script.load call.files call.directory path
    return (script, ⟨.debug, "opened script"⟩)
  | none =>
    let script := Script.read (FileTree.render call.directory) (.ofBytes call.input)
    .ok (script, ⟨.info, "reading script from stdin"⟩)

/-- Does what a command line asks for; everything is logged. -/
def perform (call : Invocation) (line : CommandLine) : Completion :=
  match line.options call.files call.directory with
  | .error error => ⟨.failed error, [], []⟩
  | .ok options =>
    let resolved : LogRecord := ⟨.debug, "resolved run options"⟩
    match call.script? line with
    | .error failure => ⟨.failed (.io failure), [], [resolved]⟩
    | .ok (script, opened) =>
      let done :=
        if line.dryRun then listScript script else call.runScript line.program options script
      { done with log := resolved :: opened :: done.log }

/-- Carries out a call. Of the log only what is wanted is kept. -/
def run (call : Invocation) : Completion :=
  match CommandLine.read call.arguments with
  | .error (.usage error) => ⟨.refused error, [], []⟩
  | .error (.help long) =>
    let text := if long then Help.long else Help.short
    ⟨.shown text, Utf8.ofString text, []⟩
  | .error .version => ⟨.shown Help.version, Utf8.ofString Help.version, []⟩
  | .ok line =>
    let done := call.perform line
    let limit := LogLevel.resolve line.logLevel call.logSetting
    { done with log := done.log.filter fun record => limit.shows record.level }

end Invocation

end LineScript
