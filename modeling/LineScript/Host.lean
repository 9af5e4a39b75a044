import LineScript.Duration
import LineScript.Environment
import LineScript.Fault

/-!
# Hosts

Where children run. A host starts a child under a number, takes lines for it,
hands out what it prints, and ends it. A host is a machine: what it answers is
a function of its state, and through the state of every call made so far. It
may answer anything; only the party that makes the calls keeps to an order.
-/

namespace LineScript

/-- What waiting for a line of output brings. -/
inductive PollOutcome where
  /-- A line, without its terminator. -/
  | line (text : String)
  /-- Nothing within the time. -/
  | timeout
  /-- The child has closed its output. -/
  | endOfStream
  deriving DecidableEq, Repr

/-- How ending a child went. -/
structure Teardown where
  /-- The failure, if it failed. -/
  failure : Option Fault := none
  /-- The time after which a child that did not end by itself was killed. -/
  killedAfter : Option Duration := none
  deriving DecidableEq, Repr

/-- A place where children run, as a machine with states `β`. Children are
told apart by the number under which they were started. -/
structure Host (β : Type) where
  /-- The name of the program that the children run. -/
  program : String
  /-- Starts a child under a number, with exactly these variables. -/
  start : β → Nat → Environment → β × Option Fault
  /-- Writes a line to a child's input. -/
  send : β → Nat → String → β × Option Fault
  /-- Waits for a line of a child's output, for at most the given time. -/
  poll : β → Nat → Duration → β × PollOutcome
  /-- Asks whether a child has ended. -/
  hasExited : β → Nat → β × Bool
  /-- Closes a child's input and output and waits for its end. -/
  teardown : β → Nat → β × Teardown
  /-- Lets time pass, in which children go on. -/
  pass : β → Duration → β

end LineScript
