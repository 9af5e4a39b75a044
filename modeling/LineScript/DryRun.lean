import LineScript.Run

/-!
# Dry runs

What a script would do, listed without starting any child and without waiting.
Each line that would have an effect gets an entry under its number; a line for
the child is listed as dropped as long as no child would have been started. The
listing is written to a sink, and ends with the first failure of the sink or of
reading the script.
-/

namespace LineScript

/-- What a listing says about one line. -/
inductive DryRunItem where
  /-- A skipped block begins (`true`) or ends. -/
  | skipMode (on : Bool)
  /-- A child would be started with these variables. -/
  | restart (env : Environment)
  /-- A line would find no child. -/
  | drop (text : String)
  /-- A line would be sent. -/
  | send (text : String)
  /-- The run would wait. -/
  | delay (duration : Duration)
  /-- A directive would be passed over. -/
  | malformed (reason : FormatError)

namespace DryRunItem

/-- The entry for a command, given whether a child would have been started. -/
def ofCommand? (hasChild : Bool) : Command → Option DryRunItem
  | .nothing => none
  | .skipMode on => some (.skipMode on)
  | .restart env => some (.restart env)
  | .send text => some (if hasChild then .send text else .drop text)
  | .delay duration => some (.delay duration)
  | .malformed reason => some (.malformed reason)

/-- The text of an entry. -/
def text : DryRunItem → String
  | .skipMode on => if on then "skip mode on" else "skip mode off"
  | .restart env =>
    let bindings := ", ".intercalate (env.entries.map fun entry => entry.1 ++ "=" ++ entry.2)
    s!"RESTART env [{bindings}]"
  | .drop text => s!"drop {text} (no child yet)"
  | .send text => s!"send {text}"
  | .delay duration =>
    let seconds := duration.render Duration.listingLayout
    s!"delay {seconds}s"
  | .malformed reason =>
    let message := reason.message
    s!"skipped: {message}"

/-- Counts an entry. -/
def countIn (report : Report) : DryRunItem → Report
  | .restart _ => { report with restarts := report.restarts + 1 }
  | .drop _ => { report with dropped := report.dropped + 1 }
  | .send _ => { report with sent := report.sent + 1 }
  | .malformed _ => { report with warnings := report.warnings + 1 }
  | _ => report

end DryRunItem

namespace DryRun

/-- A number, right-aligned to four columns. -/
def column (n : Nat) : String :=
  let digits := toString n
  String.ofList (List.replicate (4 - digits.length) ' ') ++ digits

/-- An entry as it is listed. -/
def entryLine (number : Nat) (item : DryRunItem) : String :=
  column number ++ ": " ++ item.text ++ "\n"

/-- The first line of a listing. -/
def header (baseDir : String) : String := s!"tester dry-run (base dir {baseDir})\n"

/-- What is listed for a command. There would be a child as soon as a restart was
counted. -/
def item? (report : Report) (command : Command) : Option DryRunItem :=
  DryRunItem.ofCommand? (report.restarts != 0) command

/-- Counts a command. -/
def countCommand (report : Report) (command : Command) : Report :=
  match item? report command with
  | none => report
  | some item => item.countIn report

/-- The entries for lines, each with its line's number, and the counters after
them, given the core and the counters before them. -/
def walk (core : Core) (report : Report) : List Line → List (Nat × DryRunItem) × Report
  | [] => ([], report)
  | line :: rest =>
    let read := { report with lines := report.lines + 1 }
    let next := core.step line.text
    let later := walk next.2 (countCommand read next.1) rest
    (((item? read next.1).map fun item => (line.number, item)).toList ++ later.1, later.2)

/-- The entries of a script. -/
def listing (script : Script) : List (Nat × DryRunItem) := (walk {} {} script.lines).1

/-- What a dry run counts. -/
def report (script : Script) : Report := (walk {} {} script.lines).2

/-- Writes texts in turn, up to the first failure. -/
def writeAll {σ : Type} (sink : Sink σ) (s : σ) : List String → σ × Option Fault
  | [] => (s, none)
  | text :: rest =>
    match sink.write s text with
    | (s, some fault) => (s, some fault)
    | (s, none) => writeAll sink s rest

/-- The texts that list a script. -/
def texts (script : Script) : List String :=
  header script.baseDir :: (listing script).map fun entry => entryLine entry.1 entry.2

/-- Lists a script. -/
def run {σ : Type} (sink : Sink σ) (script : Script) (s : σ) : Except RunError Report × σ :=
  match writeAll sink s (texts script) with
  | (s, some fault) => (.error (.io fault), s)
  | (s, none) =>
    match script.failure with
    | some fault => (.error (.io fault), s)
    | none =>
      match sink.flush s with
      | (s, some fault) => (.error (.io fault), s)
      | (s, none) => (.ok (report script), s)

end DryRun

end LineScript
