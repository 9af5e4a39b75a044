import LineScript.Text.Blank

/-!
# Log levels

How much is logged. A level given on the command line wins over the one in the
environment variable, and that over the default. The variable is read leniently,
whatever the case and the blanks around it, and ignored when it names no level;
the command line must name a level exactly.
-/

namespace LineScript

/-- How grave a log record is, from the gravest. -/
inductive LogLevel where
  /-- What ends the program. -/
  | error
  /-- What went wrong and was passed over. -/
  | warn
  /-- What the program does. -/
  | info
  /-- What helps to find faults. -/
  | debug
  /-- Everything. -/
  | trace
  deriving DecidableEq, Repr

namespace LogLevel

/-- All levels, from the gravest. -/
def all : List LogLevel := [.error, .warn, .info, .debug, .trace]

/-- The name of a level on the command line. -/
def name : LogLevel → String
  | .error => "error"
  | .warn => "warn"
  | .info => "info"
  | .debug => "debug"
  | .trace => "trace"

/-- The position of a level, the gravest first. -/
def rank : LogLevel → Nat
  | .error => 0
  | .warn => 1
  | .info => 2
  | .debug => 3
  | .trace => 4

/-- The level that a command line names. -/
def ofName? (text : String) : Option LogLevel := all.find? fun level => level.name == text

/-- The level that the environment variable names. Only ASCII letters have
forms that a level's name is made of. -/
def ofVariable? (text : String) : Option LogLevel :=
  let word := String.ofList ((Text.trim text.toList).map Char.toLower)
  if word = "warning" then some .warn else ofName? word

/-- The level to log at, from the command line and the environment variable. -/
def resolve (flag : Option LogLevel) (setting : Option String) : LogLevel :=
  flag.getD ((setting.bind ofVariable?).getD .info)

/-- Whether a record is logged at a level. -/
def shows (limit record : LogLevel) : Bool := record.rank ≤ limit.rank

/-- The name of a level names it. -/
theorem ofName?_name (level : LogLevel) : ofName? level.name = some level := by
  cases level <;> rfl

end LogLevel

end LineScript
