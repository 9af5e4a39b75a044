import LineScript.Host

/-!
# Supervising a child

What a supervisor does with a process in its care. It writes lines to it and
polls its output until it closes the pipes. Then it waits for the end of the
process, for a limited time if there is a limit, and kills the process when
that time is over. Once it knows of the end it does nothing more; as long as
that failed, ending the child again tries again.
-/

namespace LineScript

/-- The operations on a process, which has states `π`. -/
structure ProcessControl (π : Type) where
  /-- Writes bytes to its input. -/
  write : π → Bytes → π × Option Fault
  /-- Waits for a line of its output, for at most the given time. -/
  receive : π → Duration → π × PollOutcome
  /-- Asks whether it has ended. -/
  hasExited : π → π × Bool
  /-- Closes all its pipes. -/
  closePipes : π → π
  /-- Waits for its end, however long that takes. -/
  wait : π → π × Option Fault
  /-- Waits for its end for at most the given time; `none` if that was not
  enough. -/
  waitFor : π → Duration → π × Option (Option Fault)
  /-- Kills it. -/
  kill : π → π × Option Fault

/-- What a supervisor remembers of a child. -/
structure Supervision where
  /-- How long it waits for the end; without a limit, forever. -/
  limit : Option Duration
  /-- Whether the pipes are open. -/
  pipesOpen : Bool := true
  /-- Whether the end is known. -/
  reaped : Bool := false
  deriving DecidableEq, Repr

namespace Supervision

/-- The failure of sending to a child whose pipes are closed. -/
def inputClosed : Fault := ⟨.brokenPipe, "child stdin is closed"⟩

variable {π : Type} (control : ProcessControl π)

/-- Sends a line. -/
def send (s : Supervision) (process : π) (line : String) : π × Option Fault :=
  if s.pipesOpen then
    let text := line ++ "\n"
    control.write process (Utf8.ofString text)
  else (process, some inputClosed)

/-- Waits for a line of output. -/
def poll (s : Supervision) (process : π) (timeout : Duration) : π × PollOutcome :=
  if s.pipesOpen then control.receive process timeout else (process, .endOfStream)

/-- Waits for the end of a process whose pipes are closed. -/
def reap (limit : Option Duration) (process : π) : π × Teardown :=
  match limit with
  | none =>
    let (process, failure) := control.wait process
    (process, ⟨failure, none⟩)
  | some time =>
    match control.waitFor process time with
    | (process, some failure) => (process, ⟨failure, none⟩)
    | (process, none) =>
      match control.kill process with
      | (process, some failure) => (process, ⟨some failure, some time⟩)
      | (process, none) =>
        let (process, failure) := control.wait process
        (process, ⟨failure, some time⟩)

/-- Closes the pipes, if they are open. -/
def closePipes (s : Supervision) (process : π) : Supervision × π :=
  if s.pipesOpen then ({ s with pipesOpen := false }, control.closePipes process) else (s, process)

/-- Ends a child. -/
def teardown (s : Supervision) (process : π) : Supervision × π × Teardown :=
  let (s, process) := s.closePipes control process
  if s.reaped then (s, process, {})
  else
    let (process, answer) := reap control s.limit process
    ({ s with reaped := answer.failure.isNone }, process, answer)

end Supervision

end LineScript
