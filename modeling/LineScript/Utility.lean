/-!
# Utilities

The programs that every machine has. Some of them are also commands of the
shell, which then runs them without starting a program.
-/

namespace LineScript

/-- A program that is always there. -/
inductive Utility where
  /-- The shell. -/
  | shell
  /-- Copies files, or its input, to its output. -/
  | cat
  /-- Prints variables, or runs a program with other ones. -/
  | env
  /-- Waits. -/
  | sleep
  /-- Prints its arguments. -/
  | echo
  /-- Prints its arguments in a given form. -/
  | printf
  /-- Tests strings, numbers and files. -/
  | test
  /-- Prints the working directory. -/
  | pwd
  /-- Copies the first lines of its input. -/
  | head
  /-- Prints numbers. -/
  | seq
  /-- Does nothing, successfully. -/
  | succeed
  /-- Does nothing, and fails. -/
  | fail
  deriving DecidableEq, Repr

namespace Utility

/-- All utilities. -/
def all : List Utility :=
  [.shell, .cat, .env, .sleep, .echo, .printf, .test, .pwd, .head, .seq, .succeed, .fail]

/-- The name of a utility. -/
def name : Utility → String
  | .shell => "sh"
  | .cat => "cat"
  | .env => "env"
  | .sleep => "sleep"
  | .echo => "echo"
  | .printf => "printf"
  | .test => "test"
  | .pwd => "pwd"
  | .head => "head"
  | .seq => "seq"
  | .succeed => "true"
  | .fail => "false"

end Utility

end LineScript
