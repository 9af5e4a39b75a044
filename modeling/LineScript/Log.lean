import LineScript.LogLevel
import LineScript.Run.Event
import LineScript.Command

/-!
# The log

What is noted while a script is carried out, beside its transcript. The records
of the lines stand before those of the events that they led to; a line gets a
record only if its directive can be used, since otherwise there is a warning.
-/

namespace LineScript

/-- A record of the log. -/
structure LogRecord where
  /-- How grave it is. -/
  level : LogLevel
  /-- What happened. -/
  text : String
  deriving DecidableEq, Repr

namespace LogRecord

/-- The records of an event. -/
def ofEvent : Event → List LogRecord
  | .start _ _ none => [⟨.info, "started child process"⟩, ⟨.debug, "child restarted"⟩]
  | .teardown _ ⟨none, _⟩ => [⟨.info, "child process exited"⟩]
  | .sleep _ => [⟨.debug, "delaying"⟩]
  | .warn warning => [⟨.warn, warning.message⟩]
  | _ => []

/-- The records of lines that are stepped through a core. -/
def ofLines (core : Core) : List Line → List LogRecord
  | [] => []
  | line :: rest =>
    match core.step line.text with
    | (.malformed _, core) => ofLines core rest
    | (_, core) =>
      let number := line.number
      ⟨.trace, s!"line {number}: classified script line"⟩ :: ofLines core rest

/-- The line of a record in the log. -/
def render (record : LogRecord) : String :=
  let level := record.level.name
  s!"{level}: {record.text}\n"

end LogRecord

end LineScript
