import LineScript.Machine.Request
import LineScript.Machine.Spelling
import LineScript.Shell.Expansion
import LineScript.Shell.Grammar
import LineScript.Shell.Test

/-!
# The state of a shell

A shell is a program that carries out commands in small steps. It knows what it
is doing now, and what is left to do after that: a row of frames, the nearest
one first. All its text is spelled, one character for each byte.
-/

namespace LineScript

open Machine

namespace Shell

/-- Where an early end leads. -/
inductive Goal where
  /-- Out of so many loops. -/
  | leave (loops : Nat)
  /-- To the next round of the loop so many loops out. -/
  | again (loops : Nat)
  /-- Out of a named command or a file of commands. -/
  | back (status : Nat)
  deriving DecidableEq, Repr

/-- What a shell is doing. -/
inductive Control where
  /-- It runs a command, as far as some outputs are known. -/
  | run (command : Command) (outputs : List Output)
  /-- It has run a command. -/
  | finished (status : Nat)
  /-- It has run a command whose failure, if it failed, was already looked
  at. -/
  | settled (status : Nat)
  /-- It turns to the next line of its program. -/
  | advance
  /-- It turns to the next line of a text. -/
  | script (text : List Char)
  /-- It writes bytes. -/
  | print (descriptor : Nat) (bytes : Bytes) (next : Control)
  /-- It changes descriptors; a failure may be fatal. -/
  | rewire (changes : List Rewire) (next : Control) (fatal : Bool := false)
  /-- It changes descriptors until something else is finished. -/
  | save (changes : List Rewire) (next : Control) (fatal : Bool := false)
  /-- It needs the output of a script before it can go on with a command. -/
  | capture (command : Command) (outputs : List Output) (script : String)
  /-- It starts the script whose output it needs. -/
  | launch (command : Command) (outputs : List Output) (script : String) (reader writer : Nat)
  /-- It reads the output that it needs. -/
  | collect (command : Command) (outputs : List Output) (reader process : Nat)
      (received : Bytes)
  /-- It starts the commands of a pipeline. -/
  | stage (commands : List Command) (input : Option Nat) (processes : List Nat)
  /-- It starts a command of a pipeline that others follow. -/
  | stageInto (command : Command) (rest : List Command) (input : Option Nat)
      (reader writer : Nat) (processes : List Nat)
  /-- It waits for processes. -/
  | wait (processes : List Nat) (status : Nat)
  /-- It waits for processes that it left alone, or until a signal comes in. If
  no process was named, their endings do not count. -/
  | linger (processes : List Nat) (named : Bool) (status : Nat)
  /-- It becomes another program. -/
  | become (words : List String)
  /-- It reads a line into variables. Characters are marked if they were
  protected. -/
  | readLine (names : List String) (raw : Bool) (line : List (Char × Bool)) (escaped : Bool)
  /-- It runs a command for each of some words. -/
  | each (name : String) (words : List String) (body : Command) (status : Nat)
  /-- It finds out whether a condition holds. -/
  | test (condition : Condition)
  /-- It sends a signal to processes. -/
  | kill (signal : Option Signal) (processes : List Nat) (status : Nat)
  /-- It makes known which signals it ignores. -/
  | ignoring
  /-- It enters a directory, following the path as it is written or as it
  leads, and says where it is. -/
  | enter (path : String) (written telling : Bool)
  /-- It looks for a file of commands. -/
  | source (name : String) (paths : List String) (fatal : Bool)
  /-- It reads a file of commands. -/
  | load (received : Bytes)
  /-- It looks for an early end's goal. -/
  | unwind (goal : Goal)
  /-- It ends. -/
  | exit (code : Nat)

/-- What is left to do after a command. -/
inductive Frame where
  /-- Run another command. -/
  | sequence (second : Command)
  /-- Run another command if the first succeeded, or if it failed. -/
  | conditional (onSuccess : Bool) (second : Command)
  /-- Turn success and failure around. -/
  | negated
  /-- Choose between two commands. -/
  | choice (body otherwise : Command)
  /-- Run the body of a loop, or leave it. -/
  | loopTest (untilTrue : Bool) (condition body : Command) (last : Nat)
  /-- Test the condition of a loop again. -/
  | loopBody (untilTrue : Bool) (condition body : Command)
  /-- Run a command for the words that are left. -/
  | each (name : String) (words : List String) (body : Command)
  /-- Go back to earlier descriptors. -/
  | restore
  /-- Go back to earlier values of variables. -/
  | bindings (saved : List (String × Option Variable))
  /-- Go back to earlier arguments, after a named command. -/
  | call (arguments : List String)
  /-- Go on with a text of commands. -/
  | script (rest : List Char)
  /-- Leave a file of commands. -/
  | sourced
  /-- Go on with a command whose missing output is there now, as after an
  earlier command. -/
  | resumed (command : Command) (outputs : List Output) (text : String) (earlier : Nat)
  /-- Go on where a signal came in. -/
  | handled (after : Control)
  /-- End, after the command for the end was run. -/
  | exiting (code : Nat)

end Shell

/-- A shell. -/
structure Shell where
  /-- The values that it knows. -/
  scope : Shell.Scope
  /-- The commands that were given names. -/
  functions : List (String × Shell.Command) := []
  /-- What is to be done at signals, and at the end. -/
  traps : List (Option Signal × String) := []
  /-- Signals that came in and are not yet dealt with. -/
  pending : List Signal := []
  /-- Processes that nobody waits for. -/
  jobs : List Nat := []
  /-- Processes that were left alone and waited for later, and how they
  ended. -/
  results : List (Nat × Nat) := []
  /-- The path by which it came to its working directory. -/
  directory : String
  /-- Whether a failed command ends the shell. -/
  strict : Bool := false
  /-- Whether failures are looked at by the shell of which this is a copy. -/
  lenient : Bool := false
  /-- The loops in which the shell was copied. -/
  outerLoops : Nat := 0
  /-- The part of its program that is not read yet. -/
  program : List Char
  /-- Whether no more of the program can come from its input. -/
  complete : Bool := true
  /-- What is left to do. -/
  frames : List Shell.Frame := []
  /-- What it is doing. -/
  control : Shell.Control := .advance

namespace Shell

/-- A shell that does something else. -/
def doing (sh : Shell) (control : Control) : Shell := { sh with control }

/-- A shell with something more to do afterwards. -/
def push (sh : Shell) (frame : Frame) : Shell := { sh with frames := frame :: sh.frames }

/-- The loops around what is left to do, up to the named command that is
running. -/
def loops (outer : Nat) : List Frame → Nat
  | [] => outer
  | .call _ :: _ => 0
  | .loopTest _ _ _ _ :: frames | .loopBody _ _ _ :: frames | .each _ _ _ :: frames =>
    loops outer frames + 1
  | _ :: frames => loops outer frames

/-- Whether a failure is looked at by what is left to do. -/
def tests : List Frame → Bool
  | [] | .handled _ :: _ => false
  | .conditional _ _ :: _ | .negated :: _ | .choice _ _ :: _ | .loopTest _ _ _ _ :: _
  | .resumed _ _ _ _ :: _ => true
  | _ :: frames => tests frames

/-- Whether a failure does not end a strict shell. -/
def isForgiving (sh : Shell) : Bool := !sh.strict || sh.lenient || tests sh.frames

/-- A copy of a shell that does one thing and then ends. What it would do at
signals is forgotten, except for those that it ignores. -/
def copy (sh : Shell) (control : Control) : Shell :=
  { sh with
    traps := sh.traps.filter fun trap => trap.1.isSome && trap.2 == ""
    pending := []
    jobs := []
    lenient := false
    outerLoops := loops sh.outerLoops sh.frames
    program := []
    complete := true
    frames := []
    control }

/-- A copy of a shell that does a part of what the shell does. -/
def part (sh : Shell) (control : Control) : Shell :=
  { sh.copy control with lenient := sh.lenient || tests sh.frames }

/-- The bytes of a message of the shell. -/
def complaint (sh : Shell) (message : String) : Bytes :=
  bytesOf (sh.scope.name ++ ": 1: " ++ message ++ "\n")

/-- A shell that complains and has failed. -/
def complain (sh : Shell) (message : String) (status : Nat) : Shell :=
  sh.doing (.print 2 (sh.complaint message) (.finished status))

/-- A shell that complains and ends. -/
def refuse (sh : Shell) (message : String) : Shell :=
  sh.doing (.print 2 (sh.complaint message) (.exit 2))

/-- A shell that complains, and ends if the failure is fatal. -/
def fault (sh : Shell) (fatal : Bool) (message : String) : Shell :=
  if fatal then sh.refuse message else sh.complain message 2

/-- A shell that prints a text and has then finished. -/
def say (sh : Shell) (text : String) (status : Nat) : Shell :=
  sh.doing (.print 1 (bytesOf text) (.finished status))

/-- What a shell does at a signal, if it has a use for it. The signal is dealt
with when the command that runs has finished; waiting for processes that were
left alone has finished at once. -/
def catch? (sh : Shell) (signal : Signal) : Option Shell :=
  match sh.traps.lookup (some signal) with
  | some _ =>
    let sh := { sh with pending := sh.pending ++ [signal] }
    match sh.control with
    | .linger _ _ _ => some (sh.doing (.finished (128 + signal.number)))
    | _ => some sh
  | none => none

/-- The signals that a shell ignores. -/
def ignored (sh : Shell) : List Signal :=
  sh.traps.filterMap fun trap => if trap.2 == "" then trap.1 else none

/-- A shell without special values for some variables. -/
def restoreVariables (sh : Shell) (saved : List (String × Option Variable)) : Shell :=
  let scope := saved.foldl (fun scope (name, old) =>
    match old with
    | none => scope.unset name
    | some kept =>
      let scope := scope.set name kept.value
      { scope with
        bindings := scope.bindings.map fun v => if v.name = name then kept else v })
    sh.scope
  { sh with scope }

end Shell

end LineScript
