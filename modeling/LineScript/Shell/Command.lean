import LineScript.Shell.Word

/-!
# Commands of the shell

What the shell can be told to do.
-/

namespace LineScript.Shell

/-- What a redirection does with a descriptor. -/
inductive RedirectKind where
  /-- Reads from a file. -/
  | input
  /-- Writes to a file, which is emptied first. -/
  | output
  /-- Writes to the end of a file. -/
  | append
  /-- Becomes the same as another descriptor, or is closed at a dash. -/
  | duplicate
  /-- Reads a text. -/
  | document
  deriving DecidableEq, Repr

/-- A redirection. -/
structure Redirect where
  /-- The descriptor. -/
  descriptor : Nat
  /-- What is done with it. -/
  kind : RedirectKind
  /-- The file, the other descriptor, or the text. -/
  target : Word
  deriving Repr

/-- A command. -/
inductive Command where
  /-- Does nothing. -/
  | nothing
  /-- Sets variables, or runs a program or a command of the shell's own. -/
  | simple (assignments : List (String × Word)) (words : List Word) (redirects : List Redirect)
  /-- One command after the other. -/
  | sequence (first second : Command)
  /-- Runs a command without waiting for it. -/
  | background (body : Command)
  /-- Runs the second command if the first succeeded, or if it failed. -/
  | conditional (onSuccess : Bool) (first second : Command)
  /-- Turns success and failure around. -/
  | negated (body : Command)
  /-- Runs commands at once, each reading what the one before it writes. -/
  | pipeline (commands : List Command)
  /-- Runs a command if another succeeds, and perhaps a third if not. -/
  | choice (condition body otherwise : Command)
  /-- Runs a command as long as, or until, another succeeds. -/
  | loop (untilTrue : Bool) (condition body : Command)
  /-- Runs a command for each of some words, or for each argument. -/
  | each (name : String) (words : Option (List Word)) (body : Command)
  /-- Runs the command of the first pattern that a word matches. -/
  | select (word : Word) (arms : List (List Word × Command))
  /-- Runs a command in a shell of its own. -/
  | subshell (body : Command)
  /-- Runs a command with redirections. -/
  | redirected (body : Command) (redirects : List Redirect)
  /-- Gives a command a name. -/
  | define (name : String) (body : Command)
  deriving Repr

end LineScript.Shell
