import LineScript.Host
import LineScript.Script
import LineScript.Directive

/-!
# Events of a run

Everything a run does that can be seen from outside, one event for each call of
the host and of the sink, each wait and each warning, with the answer that it
got. The list of all events is the history of a run: what was written, what was
sent and what was warned of are read off it.
-/

namespace LineScript

/-- A trouble that does not stop a run. -/
inductive Warning where
  /-- A line whose directive cannot be used was passed over. -/
  | malformed (line : Line) (reason : FormatError)
  /-- A child did not end by itself and was killed. -/
  | killed (after : Duration)
  /-- After a failed run, ending the child failed too. -/
  | cleanupFailed (failure : Fault)
  deriving DecidableEq, Repr

/-- The wording of a warning. -/
def Warning.message : Warning → String
  | .malformed line reason =>
    let number := line.number
    let text := reason.message
    s!"line {number}: {text}; skipping directive"
  | .killed _ => "child did not exit after its pipes closed; killing it"
  | .cleanupFailed _ => "teardown after failed run also failed"

/-- Something that a run did, with the answer that it got. -/
inductive Event where
  /-- A start, under the number that the child gets. -/
  | start (child : Nat) (env : Environment) (failure : Option Fault)
  /-- A line for a child. -/
  | send (child : Nat) (text : String) (failure : Option Fault)
  /-- A wait for a child's output. -/
  | poll (child : Nat) (timeout : Duration) (outcome : PollOutcome)
  /-- A question whether a child has ended. -/
  | hasExited (child : Nat) (exited : Bool)
  /-- The end of a child. -/
  | teardown (child : Nat) (answer : Teardown)
  /-- A text for the transcript. -/
  | write (text : String) (failure : Option Fault)
  /-- A flush of the transcript. -/
  | flush (failure : Option Fault)
  /-- A wait. -/
  | sleep (duration : Duration)
  /-- A warning. -/
  | warn (warning : Warning)
  deriving DecidableEq

namespace Event

/-- Whether an event is a call of the host. -/
def isHostCall : Event → Bool
  | .start .. | .send .. | .poll .. | .hasExited .. | .teardown .. => true
  | _ => false

/-- The warning of an event. -/
def warning? : Event → Option Warning
  | .warn warning => some warning
  | _ => none

/-- The wait of an event. -/
def sleep? : Event → Option Duration
  | .sleep duration => some duration
  | _ => none

end Event

end LineScript
