import LineScript.Host

/-!
# Echoing children

A host whose children print every line that they are sent, and that keeps a log
of what it saw. It can be told to start nothing, to print nothing, and to let
its children die: after a number of lines taken, or after a number of lines
printed; they may also close their output early.
-/

namespace LineScript

/-- How the children of an echoing host behave. -/
structure EchoOptions where
  /-- No child can be started. -/
  failingStart : Bool := false
  /-- Children print nothing. -/
  silent : Bool := false
  /-- How many lines a child takes before it refuses more. -/
  acceptLines : Option Nat := none
  /-- How many lines a child prints before it closes its output. -/
  closeOutputAfter : Option Nat := none
  /-- How many lines a child prints before it has ended. -/
  exitAfterOutput : Option Nat := none

/-- A child that echoes. -/
structure EchoChild where
  /-- The variables it was started with. -/
  env : Environment
  /-- The lines it has taken, the latest first. -/
  taken : List String := []
  /-- The lines it has taken and not yet printed. -/
  pending : List String := []
  /-- How many lines it still takes, if not any number. -/
  remaining : Option Nat
  /-- How many lines it has printed. -/
  printed : Nat := 0
  /-- Whether it was torn down. -/
  tornDown : Bool := false

/-- An echoing host with all children it ever started. -/
structure EchoState where
  /-- How the children behave. -/
  options : EchoOptions := {}
  /-- The children, in the order of their starts. -/
  children : List EchoChild := []
  /-- What polling brought, over all children, the latest first. -/
  polled : List PollOutcome := []
  /-- How many children were torn down. -/
  teardowns : Nat := 0
  /-- The greatest number of children that lived at one time. -/
  mostLive : Nat := 0

namespace EchoChild

/-- The lines that a child took, in order. -/
def received (child : EchoChild) : List String := child.taken.reverse

/-- Whether a limit is reached. -/
def reached (limit : Option Nat) (count : Nat) : Bool := limit.any (· ≤ count)

/-- Whether a child has ended. -/
def hasExited (options : EchoOptions) (child : EchoChild) : Bool :=
  child.tornDown || reached options.exitAfterOutput child.printed

/-- A child that has taken a line, unless it has ended or takes no more. -/
def send (options : EchoOptions) (child : EchoChild) (line : String) : Option EchoChild :=
  if child.hasExited options || child.remaining == some 0 then none
  else
    some { child with
      remaining := child.remaining.map (· - 1)
      taken := line :: child.taken
      pending := if options.silent then child.pending else child.pending ++ [line] }

/-- A child after printing, and what it printed. -/
def poll (options : EchoOptions) (child : EchoChild) : EchoChild × PollOutcome :=
  if reached options.closeOutputAfter child.printed then (child, .endOfStream)
  else
    match child.pending with
    | line :: rest => ({ child with pending := rest, printed := child.printed + 1 }, .line line)
    | [] => (child, .timeout)

end EchoChild

namespace EchoState

/-- The failure of every start, where none can succeed. -/
def noSuchProgram : Fault := ⟨.notFound, "no such program"⟩

/-- The failure of a line for a child that takes no more. -/
def inputClosed : Fault := ⟨.brokenPipe, "broken pipe"⟩

/-- What polling brought, in order. -/
def polls (s : EchoState) : List PollOutcome := s.polled.reverse

/-- How many children live. -/
def live (s : EchoState) : Nat := s.children.countP (!·.tornDown)

/-- Starts a child. -/
def start (s : EchoState) (_child : Nat) (env : Environment) : EchoState × Option Fault :=
  if s.options.failingStart then (s, some noSuchProgram)
  else
    let children := s.children ++ [{ env, remaining := s.options.acceptLines }]
    let next := { s with children }
    ({ next with mostLive := max s.mostLive next.live }, none)

/-- Hands a line to a child. -/
def send (s : EchoState) (number : Nat) (line : String) : EchoState × Option Fault :=
  match s.children[number]?.bind (·.send s.options line) with
  | some child => ({ s with children := s.children.set number child }, none)
  | none => (s, some inputClosed)

/-- Takes a line of output from a child. -/
def poll (s : EchoState) (number : Nat) (_timeout : Duration) : EchoState × PollOutcome :=
  match s.children[number]? with
  | some child =>
    let (child, outcome) := child.poll s.options
    ({ s with children := s.children.set number child, polled := outcome :: s.polled }, outcome)
  | none => (s, .endOfStream)

/-- Asks whether a child has ended. -/
def hasExited (s : EchoState) (number : Nat) : EchoState × Bool :=
  (s, s.children[number]?.all (·.hasExited s.options))

/-- Ends a child, which never fails and counts once. -/
def teardown (s : EchoState) (number : Nat) : EchoState × Teardown :=
  match s.children[number]? with
  | some child =>
    if child.tornDown then (s, {})
    else
      ({ s with
          children := s.children.set number { child with tornDown := true }
          teardowns := s.teardowns + 1 }, {})
  | none => (s, {})

/-- The echoing host. -/
def host : Host EchoState := ⟨"fake-cat", start, send, poll, hasExited, teardown, fun s _ => s⟩

end EchoState

end LineScript
