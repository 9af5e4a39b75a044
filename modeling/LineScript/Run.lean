import LineScript.Run.Event
import LineScript.Command
import LineScript.RunError
import LineScript.Sink

/-!
# Running a script

A runner carries out the commands of a script against a host and writes the
transcript into a sink. It has at most one child at a time and ends it before
it starts the next. A line is written to the transcript and flushed before it
is sent; then the child's output is drained, one line for each poll, until a
poll brings none or the child has ended. The first failure stops the script;
whatever happens, a child that still lives is ended before the run is over.

The number of polls in one drain is bounded, since a host may have output
without end; a run that reaches the bound is unfinished, which is neither
success nor failure.
-/

namespace LineScript

/-- What a runner has counted. -/
structure Report where
  /-- Script lines read, comments and skipped lines included. -/
  lines : Nat := 0
  /-- Children started. -/
  restarts : Nat := 0
  /-- Lines handed to a child. -/
  sent : Nat := 0
  /-- Lines for which there was no child. -/
  dropped : Nat := 0
  /-- Lines of output copied to the transcript. -/
  echoed : Nat := 0
  /-- Directives passed over as unusable. -/
  warnings : Nat := 0
  deriving DecidableEq, Repr

/-- The parties that a runner deals with. -/
structure Runner (β σ : Type) where
  /-- Where children run. -/
  host : Host β
  /-- Where the transcript goes. -/
  sink : Sink σ
  /-- How long one poll waits. -/
  pollTimeout : Duration
  /-- How many polls one drain makes at most. -/
  patience : Nat

/-- The state of a runner, of its host and of its sink. -/
structure RunState (β σ : Type) where
  /-- Variables and skip mode. -/
  core : Core := {}
  /-- The number of the live child. -/
  child : Option Nat := none
  /-- What was counted. -/
  report : Report := {}
  /-- The state of the host. -/
  host : β
  /-- The state of the sink. -/
  sink : σ
  /-- How many children were started so far. -/
  started : Nat := 0
  /-- What happened so far, the latest first. -/
  history : List Event := []

/-- Why carrying out a script stops early. -/
inductive Halt where
  /-- Something failed. -/
  | failed (error : RunError)
  /-- A drain reached its bound. -/
  | unfinished
  deriving DecidableEq, Repr

/-- How a run ends. -/
inductive Outcome where
  /-- The whole script was carried out. -/
  | finished (report : Report)
  /-- Something failed. -/
  | failed (error : RunError)
  /-- A drain reached its bound. -/
  | unfinished
  deriving DecidableEq, Repr

/-- A part of a run: it changes the state and may stop the script. -/
abbrev Action (β σ α : Type) := ExceptT Halt (StateM (RunState β σ)) α

namespace Runner

variable {β σ : Type} (r : Runner β σ)

/-- Notes an event. -/
def note (event : Event) : Action β σ Unit :=
  modify fun s => { s with history := event :: s.history }

/-- Changes the counters. -/
def count (change : Report → Report) : Action β σ Unit :=
  modify fun s => { s with report := change s.report }

/-- Stops the script if a call failed. -/
def check (failure : Option Fault) (error : Fault → RunError) : Action β σ Unit :=
  match failure with
  | none => pure ()
  | some fault => throw (.failed (error fault))

/-- Writes a line to the transcript. -/
def writeLine (line : String) : Action β σ Unit := do
  let s ← get
  let text := line ++ "\n"
  let (sink, failure) := r.sink.write s.sink text
  set { s with sink }
  note (.write text failure)
  check failure .io

/-- Flushes the transcript, and gives the failure. -/
def tryFlush : Action β σ (Option Fault) := do
  let s ← get
  let (sink, failure) := r.sink.flush s.sink
  set { s with sink }
  note (.flush failure)
  return failure

/-- Flushes the transcript. -/
def flush : Action β σ Unit := do
  check (← r.tryFlush) .io

/-- Ends the child, if there is one, and gives the failure. -/
def tryTeardown : Action β σ (Option Fault) := do
  let s ← get
  match s.child with
  | none => return none
  | some child =>
    let (host, answer) := r.host.teardown s.host child
    set { s with host, child := none }
    if let some limit := answer.killedAfter then
      note (.warn (.killed limit))
    note (.teardown child answer)
    return answer.failure

/-- Starts a child under the next number, and gives the failure. -/
def tryStart (env : Environment) : Action β σ (Option Fault) := do
  let s ← get
  let (host, failure) := r.host.start s.host s.started env
  set { s with host }
  note (.start s.started env failure)
  return failure

/-- Hands a text to a child, and gives the failure. -/
def trySend (child : Nat) (text : String) : Action β σ (Option Fault) := do
  let s ← get
  let (host, failure) := r.host.send s.host child text
  set { s with host }
  note (.send child text failure)
  return failure

/-- Waits for a line of a child's output. -/
def poll (child : Nat) : Action β σ PollOutcome := do
  let s ← get
  let (host, outcome) := r.host.poll s.host child r.pollTimeout
  set { s with host }
  note (.poll child r.pollTimeout outcome)
  return outcome

/-- Asks whether a child has ended. -/
def hasExited (child : Nat) : Action β σ Bool := do
  let s ← get
  let (host, exited) := r.host.hasExited s.host child
  set { s with host }
  note (.hasExited child exited)
  return exited

/-- Lets time pass. -/
def sleep (duration : Duration) : Action β σ Unit := do
  let s ← get
  set { s with host := r.host.pass s.host duration }
  note (.sleep duration)

/-- Copies a child's output to the transcript, until a poll brings no line or
the child has ended after a line. -/
def drain (child : Nat) : Nat → Action β σ Unit
  | 0 => throw .unfinished
  | left + 1 => do
    match ← r.poll child with
    | .line output =>
      r.writeLine ("< " ++ String.ofList (Text.trim output.toList))
      count fun report => { report with echoed := report.echoed + 1 }
      if ← r.hasExited child then r.flush else drain child left
    | .timeout => r.flush
    | .endOfStream => r.flush

/-- Takes on the child that was started last. -/
def adopt : Action β σ Unit := do
  modify fun s => { s with child := some s.started, started := s.started + 1 }
  count fun report => { report with restarts := report.restarts + 1 }

/-- Replaces the child by a new one. -/
def restart (line : Line) (env : Environment) : Action β σ Unit := do
  check (← r.tryTeardown) .io
  check (← r.tryStart env) (.spawn line.number line.text r.host.program)
  adopt

/-- Hands a text to a child and drains its output. -/
def sendTo (line : Line) (child : Nat) (text : String) : Action β σ Unit := do
  r.writeLine ("> " ++ text)
  r.flush
  check (← r.trySend child text) (.write line.number text)
  count fun report => { report with sent := report.sent + 1 }
  r.drain child r.patience

/-- Hands a text to the child, if there is one. -/
def send (line : Line) (text : String) : Action β σ Unit := do
  match (← get).child with
  | none => count fun report => { report with dropped := report.dropped + 1 }
  | some child => r.sendTo line child text

/-- Announces a wait and waits. -/
def delay (duration : Duration) : Action β σ Unit := do
  r.writeLine ("D: " ++ duration.render Duration.transcriptLayout)
  r.flush
  r.sleep duration

/-- Turns a line into its command. -/
def step (text : String) : Action β σ Command := do
  let s ← get
  let (command, core) := s.core.step text
  set { s with core }
  return command

/-- Carries out a command. -/
def execute (line : Line) : Command → Action β σ Unit
  | .nothing => pure ()
  | .skipMode on => r.writeLine (if on then "skip mode on" else "skip mode off")
  | .restart env => r.restart line env
  | .send text => r.send line text
  | .delay duration => r.delay duration
  | .malformed reason => do
    count fun report => { report with warnings := report.warnings + 1 }
    note (.warn (.malformed line reason))

/-- Counts a line and carries out its command. -/
def runLine (line : Line) : Action β σ Unit := do
  count fun report => { report with lines := report.lines + 1 }
  r.execute line (← step line.text)

/-- Carries out lines in turn. -/
def runLines : List Line → Action β σ Unit
  | [] => pure ()
  | line :: rest => do
    r.runLine line
    runLines rest

/-- Carries out the lines that could be read; what ended the reading stops the
script after them. -/
def runScript (script : Script) : Action β σ Unit := do
  r.runLines script.lines
  check script.failure .io

/-- What is done after a script, however it ended: the child is ended and the
transcript flushed. A failing flush is passed over, and a failure of the script
counts before one of the clean-up. -/
def conclude (stopped : Except Halt Unit) : Action β σ Outcome := do
  let cleanup ← r.tryTeardown
  let _ ← r.tryFlush
  match stopped, cleanup with
  | .error (.failed error), none => return .failed error
  | .error (.failed error), some fault => do
    note (.warn (.cleanupFailed fault))
    return .failed error
  | .error .unfinished, _ => return .unfinished
  | .ok (), some fault => return .failed (.io fault)
  | .ok (), none => return .finished (← get).report

/-- Runs a script. An unfinished script is left where it stands. -/
def run (script : Script) (s : RunState β σ) : Outcome × RunState β σ :=
  match (r.runScript script).run.run s with
  | (.error .unfinished, s) => (.unfinished, s)
  | (stopped, s) =>
    match (r.conclude stopped).run.run s with
    | (.ok outcome, s) => (outcome, s)
    | (.error _, s) => (.unfinished, s)

/-- Runs scripts one after the other, and gives each outcome with the state
after it. Nothing comes after an unfinished run. -/
def runAll : List Script → RunState β σ → List (Outcome × RunState β σ)
  | [], _ => []
  | script :: rest, s =>
    let result := r.run script s
    if result.1 = .unfinished then [result] else result :: runAll rest result.2

end Runner

namespace RunState

variable {β σ : Type}

/-- What happened so far, in order. -/
def events (s : RunState β σ) : List Event := s.history.reverse

/-- Whether a child lives. -/
def hasChild (s : RunState β σ) : Bool := s.child.isSome

end RunState

end LineScript
