/-!
# Signals

What one process can do to another besides reading and writing. A signal ends a
process unless the process ignores it or has a use for it; the killing signal
cannot be ignored.
-/

namespace LineScript.Machine

/-- A signal. -/
inductive Signal where
  /-- The terminal is gone. -/
  | hangup
  /-- Stop what you do. -/
  | interrupt
  /-- Stop, in anger. -/
  | quit
  /-- Die. -/
  | kill
  /-- First signal of free use. -/
  | user1
  /-- Second signal of free use. -/
  | user2
  /-- Nobody reads what is written. -/
  | pipe
  /-- Time is up. -/
  | alarm
  /-- Please end. -/
  | terminate
  /-- A child has ended; this ends nobody. -/
  | child
  deriving DecidableEq, Repr

namespace Signal

/-- All signals. -/
def all : List Signal :=
  [.hangup, .interrupt, .quit, .kill, .user1, .user2, .pipe, .alarm, .terminate, .child]

/-- The number of a signal. -/
def number : Signal → Nat
  | .hangup => 1
  | .interrupt => 2
  | .quit => 3
  | .kill => 9
  | .user1 => 10
  | .pipe => 13
  | .user2 => 12
  | .alarm => 14
  | .terminate => 15
  | .child => 17

/-- The name of a signal. -/
def name : Signal → String
  | .hangup => "HUP"
  | .interrupt => "INT"
  | .quit => "QUIT"
  | .kill => "KILL"
  | .user1 => "USR1"
  | .user2 => "USR2"
  | .pipe => "PIPE"
  | .alarm => "ALRM"
  | .terminate => "TERM"
  | .child => "CHLD"

/-- The signal that a name, with or without its first letters, or a number
denotes. -/
def ofText? (text : String) : Option Signal :=
  all.find? fun signal =>
    text = signal.name || text = "SIG" ++ signal.name || text.toNat? = some signal.number

/-- Whether a signal ends a process that does not care. -/
def isFatal (signal : Signal) : Bool := signal != .child

end Signal

end LineScript.Machine
