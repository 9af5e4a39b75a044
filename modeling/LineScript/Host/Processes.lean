import LineScript.Child.Output
import LineScript.Child.Supervision
import LineScript.Machine.Step

/-!
# Children as processes

A host whose children are processes on a machine. Whenever the host has to
wait, the machine works on, and with it the readers of the children's output;
what children print as messages is read and thrown away. The steps for which
the host waits are bounded, because a process may go on without end.
-/

namespace LineScript

/-- A child that is a process. -/
structure ProcessChild where
  /-- The number under which the host knows it. -/
  child : Nat
  /-- The number of the process. -/
  process : Nat
  /-- The pipe of its input. -/
  input : Nat
  /-- The pipe of its output. -/
  output : Nat
  /-- The pipe of its messages. -/
  messages : Nat
  /-- Its output on the way. -/
  lines : ChildOutput := {}
  /-- What is remembered of it. -/
  supervision : Supervision

/-- A machine with children on it. -/
structure ProcessState where
  /-- The machine. -/
  machine : Machine
  /-- The children, the latest first. -/
  children : List ProcessChild := []

/-- What is started, and where. -/
structure Launch where
  /-- The name or the path of the program. -/
  program : String
  /-- Its arguments. -/
  arguments : List String
  /-- Its working directory. -/
  directory : Location
  /-- How long a child whose pipes are closed may live. -/
  limit : Option Duration

namespace ProcessState

/-- The child of a number. -/
def child? (s : ProcessState) (number : Nat) : Option ProcessChild :=
  s.children.find? fun c => c.child = number

/-- The state with a child in a new state. -/
def update (s : ProcessState) (child : ProcessChild) : ProcessState :=
  { s with children := s.children.map fun c => if c.child = child.child then child else c }

/-! ## Readers of output -/

/-- The size of the buffer through which output is read. -/
def bufferSize : Nat := 8192

/-- Lets a reader of output do one thing; `none` if it has to wait. -/
def stepReader (m : Machine) (pipe : Nat) (o : ChildOutput) : Option (Machine × ChildOutput) :=
  match o.reader with
  | .ended => none
  | .holding _ => if o.queue.length < ChildOutput.queueLimit then some (m, o.push) else none
  | .reading =>
    if o.needsFetch then
      (m.read (.reader pipe) bufferSize).map fun (m, answer) =>
        match answer with
        | .ok [] => (m, o.feed .finished)
        | .ok bytes => (m, o.feed (.bytes bytes))
        | .error _ => (m, o.feed .failed)
    else some (m, o.cut)

/-- Lets a reader do at most so many things; tells whether it did any. -/
def runReader (pipe : Nat) : Nat → Machine → ChildOutput → Bool → Machine × ChildOutput × Bool
  | 0, m, o, moved => (m, o, moved)
  | steps + 1, m, o, moved =>
    match stepReader m pipe o with
    | none => (m, o, moved)
    | some (m, o) => runReader pipe steps m o true

/-- How many things a reader does in a round. -/
def readerSteps : Nat := 8

/-- Reads the messages of a child; tells whether there were any. -/
def drainMessages (m : Machine) (pipe : Nat) : Machine × Bool :=
  match m.read (.reader pipe) Machine.pipeCapacity with
  | some (m, .ok (_ :: _)) => (m, true)
  | _ => (m, false)

/-- Lets the readers of a child work for a round; tells whether they did. -/
def serve (s : ProcessState) (child : ProcessChild) : ProcessState × Bool :=
  if child.supervision.pipesOpen then
    let (m, lines, moved) := runReader child.output readerSteps s.machine child.lines false
    let (machine, drained) := drainMessages m child.messages
    ({ s with machine }.update { child with lines }, moved || drained)
  else (s, false)

/-- Lets the machine and all readers work for a round; tells whether anything
happened. -/
def round (s : ProcessState) : ProcessState × Bool :=
  let (machine, moved) := s.machine.round
  s.children.foldl (fun (s, moved) child =>
    let (s, served) := s.serve child
    (s, moved || served)) ({ s with machine }, moved)

/-! ## Waiting -/

/-- For how many rounds the host waits at most. -/
def patience : Nat := 20000000

/-- Waits for something, until a moment if there is one, for at most so many
rounds. When nothing happens, time moves on to the next moment at which
something can. -/
def await {α : Type} (ready : ProcessState → Option (ProcessState × α)) (deadline : Option Nat) :
    Nat → ProcessState → ProcessState × Option α
  | 0, s => (s, none)
  | fuel + 1, s =>
    match ready s with
    | some (s, a) => (s, some a)
    | none =>
      if deadline.any (· ≤ s.machine.clock) then (s, none)
      else
        match s.round with
        | (s, true) => await ready deadline fuel s
        | (s, false) =>
          match (s.machine.nextWake.toList ++ deadline.toList).min? with
          | none => (s, none)
          | some clock =>
            await ready deadline fuel { s with machine := { s.machine with clock } }

/-- The moment after some time. -/
def after (s : ProcessState) (time : Duration) : Nat := s.machine.clock + time.nanos

/-! ## The operations on a child -/

/-- The failure of waiting for what never happens. -/
def stuck : Fault := ⟨.other, "the machine has stopped"⟩

/-- Writes bytes to the input of a process, for at most so many rounds. -/
def writeAll (pipe : Nat) : Nat → ProcessState → Bytes → ProcessState × Option Fault
  | 0, s, _ => (s, some stuck)
  | fuel + 1, s, bytes =>
    if bytes.isEmpty then (s, none)
    else
      match s.machine.write (.writer pipe) bytes with
      | .done machine count => writeAll pipe fuel { s with machine } (bytes.drop count)
      | .failed failure => (s, some failure)
      | .unread => (s, some .brokenPipe)
      | .blocked =>
        match s.round with
        | (s, true) => writeAll pipe fuel s bytes
        | (s, false) =>
          match s.machine.nextWake with
          | none => (s, some stuck)
          | some clock => writeAll pipe fuel { s with machine := { s.machine with clock } } bytes

/-- Takes the next line of a child's output. -/
def receiveLine (number : Nat) (s : ProcessState) : Option (ProcessState × PollOutcome) := do
  let child ← s.child? number
  let (lines, outcome) ← child.lines.receive
  return (s.update { child with lines }, outcome)

/-- Whether a process has ended. A process that nobody remembers has. -/
def hasEnded (process : Nat) (s : ProcessState) : Bool :=
  (s.machine.process? process).all fun p => p.ending.isSome

/-- Takes note of the end of a process. -/
def noteEnd (process : Nat) (s : ProcessState) : Option (ProcessState × Unit) :=
  if hasEnded process s then some ({ s with machine := s.machine.forget process }, ()) else none

/-- Closes the pipes of a child. -/
def closePipes (child : ProcessChild) (s : ProcessState) : ProcessState :=
  let ends : List Machine.Channel :=
    [.writer child.input, .reader child.output, .reader child.messages]
  let held := s.machine.held.filter fun channel => !ends.contains channel
  let supervision := { child.supervision with pipesOpen := false }
  { s with machine := { s.machine with held } }.update { child with supervision }

/-- The operations on the process of a child. -/
def control (child : ProcessChild) : ProcessControl ProcessState where
  write s bytes := writeAll child.input patience s bytes
  receive s timeout :=
    let (s, outcome) := await (receiveLine child.child) (some (s.after timeout)) patience s
    (s, outcome.getD .timeout)
  hasExited s := (s, hasEnded child.process s)
  closePipes s := closePipes child s
  wait s :=
    match await (noteEnd child.process) none patience s with
    | (s, some ()) => (s, none)
    | (s, none) => (s, some stuck)
  waitFor s time :=
    match await (noteEnd child.process) (some (s.after time)) patience s with
    | (s, some ()) => (s, some none)
    | (s, none) => (s, none)
  kill s := ({ s with machine := s.machine.deliver child.process .kill }, none)

/-! ## The host -/

/-- The failure of a call for a child that does not exist. -/
def noSuchChild : Fault := ⟨.other, "no such child"⟩

/-- Starts a child with exactly these variables. -/
def start (launch : Launch) (s : ProcessState) (number : Nat) (env : Environment) :
    ProcessState × Option Fault :=
  match s.machine.spawn launch.directory (Machine.spell launch.program)
    (launch.arguments.map Machine.spell) (env.assignments.map Machine.spell) with
  | .error failure => (s, some failure)
  | .ok (machine, process, input, output, messages) =>
    let child : ProcessChild :=
      { child := number, process, input, output, messages
        supervision := { limit := launch.limit } }
    (⟨machine, child :: s.children⟩, none)

/-- Sends a line to a child. -/
def send (s : ProcessState) (number : Nat) (line : String) : ProcessState × Option Fault :=
  match s.child? number with
  | none => (s, some noSuchChild)
  | some child => child.supervision.send (control child) s line

/-- Waits for a line of a child's output. -/
def poll (s : ProcessState) (number : Nat) (timeout : Duration) : ProcessState × PollOutcome :=
  match s.child? number with
  | none => (s, .endOfStream)
  | some child => child.supervision.poll (control child) s timeout

/-- Asks whether a child has ended. -/
def hasExited (s : ProcessState) (number : Nat) : ProcessState × Bool :=
  match s.child? number with
  | none => (s, true)
  | some child => (control child).hasExited s

/-- Ends a child. -/
def teardown (s : ProcessState) (number : Nat) : ProcessState × Teardown :=
  match s.child? number with
  | none => (s, {})
  | some child =>
    let (supervision, s, answer) := child.supervision.teardown (control child) s
    match s.child? number with
    | none => (s, answer)
    | some child => (s.update { child with supervision }, answer)

/-- Waits for the end of a child for some time; tells whether it came. -/
def awaitExit (s : ProcessState) (number : Nat) (time : Duration) : ProcessState × Bool :=
  match s.child? number with
  | none => (s, true)
  | some child =>
    let ready (s : ProcessState) := if hasEnded child.process s then some (s, ()) else none
    let (s, ended) := await ready (some (s.after time)) patience s
    (s, ended.isSome)

/-- Lets go of a child: its pipes are closed, and its process is left alone. -/
def drop (s : ProcessState) (number : Nat) : ProcessState :=
  match s.child? number with
  | none => s
  | some child =>
    let s := closePipes child s
    { s with children := s.children.filter fun c => c.child ≠ number }

/-- Lets time pass. -/
def pass (s : ProcessState) (time : Duration) : ProcessState :=
  let never (_ : ProcessState) : Option (ProcessState × Unit) := none
  (await never (some (s.after time)) patience s).1

/-- The host whose children are processes. -/
def host (launch : Launch) : Host ProcessState :=
  ⟨launch.program, start launch, send, poll, hasExited, teardown, pass⟩

end ProcessState

end LineScript
