import LineScript.Directive
import LineScript.Environment

/-!
# Commands

The pure part of running a script. The core keeps the variables for the next
child and whether a block is being skipped; each line is turned into one
command for the part that talks to a child. Variables never reach a child that
is already running: a restart carries the environment as it stands.
-/

namespace LineScript

/-- What is to be done for one line. -/
inductive Command where
  /-- Nothing that can be seen from outside the core. -/
  | nothing
  /-- A skipped block begins (`true`) or ends. -/
  | skipMode (on : Bool)
  /-- Replace the child by a new one with this environment. -/
  | restart (env : Environment)
  /-- Hand a line to the child. -/
  | send (text : String)
  /-- Wait. -/
  | delay (duration : Duration)
  /-- Pass over a directive that cannot be used. -/
  | malformed (reason : FormatError)

/-- The state of a script between two lines. -/
structure Core where
  /-- The variables for the next child. -/
  env : Environment := .empty
  /-- Whether lines are being skipped. -/
  skipping : Bool := false

namespace Core

/-- The command for a directive, and the state after it. -/
def perform (core : Core) : Directive → Command × Core
  | .endSkip => (.skipMode false, { core with skipping := false })
  | .ignored => (.nothing, core)
  | .startSkip => (.skipMode true, { core with skipping := true })
  | .env key value => (.nothing, { core with env := core.env.set key value })
  | .envClear => (.nothing, { core with env := .empty })
  | .restart => (.restart core.env, core)
  | .delay duration => (.delay duration, core)
  | .send text => (.send text, core)

/-- The command for a line, and the state after it. -/
def step (core : Core) (line : String) : Command × Core :=
  match Directive.classify line core.skipping with
  | .ok directive => core.perform directive
  | .error reason => (.malformed reason, core)

/-- The commands for lines in turn. -/
def commands (core : Core) : List String → List Command
  | [] => []
  | line :: rest =>
    let next := core.step line
    next.1 :: commands next.2 rest

/-- The state after lines in turn. -/
def after (core : Core) (lines : List String) : Core :=
  lines.foldl (fun core line => (core.step line).2) core

end Core

end LineScript
