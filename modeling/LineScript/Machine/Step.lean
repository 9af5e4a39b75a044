import LineScript.Machine.State

/-!
# Steps of a machine

How the machine meets the requests of its processes. In a round every process
is given one step; a process whose request cannot be met yet waits and asks
again. A round takes a little time, and when all processes wait, time moves on
to the moment at which the first of them has slept enough.
-/

namespace LineScript.Machine

/-- The machine after a signal was sent to a process, if there is one. -/
def deliver (m : Machine) (number : Nat) (signal : Signal) : Machine :=
  match m.process? number with
  | none => m
  | some p =>
    if p.ending.isSome then m
    else if signal = .kill then m.finish p (.signal signal)
    else if p.ignored.contains signal then m
    else
      match p.task.catch? signal with
      | some task => m.update { p with task }
      | none => if signal.isFatal then m.finish p (.signal signal) else m

/-- The machine after a process became another program, or the failure. -/
def become (m : Machine) (p : Process) (name : String) (arguments bindings : List String)
    (search : Option String) : Except Fault Machine := do
  let path := search.getD ((Program.valueOf? bindings "PATH").getD Program.usualSearch)
  let program ← Program.find m.files p.directory name arguments path
  let place := spell (FileTree.render p.directory)
  let task := Task.start program.utility program.arguments bindings p.number place
  return m.update { p with task, kept := [] }

/-- Meets a request of a process; `none` if it has to wait. -/
def meet (m : Machine) (p : Process) : Request Task → Option Machine
  | .proceed task => some (m.update { p with task })
  | .read descriptor limit next =>
    match p.table.lookup descriptor with
    | none => some (m.update { p with task := next (.error .badDescriptor) })
    | some channel =>
      (m.read channel limit).map fun (m, answer) => m.update { p with task := next answer }
  | .write descriptor bytes next =>
    match p.table.lookup descriptor with
    | none => some (m.update { p with task := next (.error .badDescriptor) })
    | some channel =>
      match m.write channel bytes with
      | .blocked => none
      | .done m count => some (m.update { p with task := next (.ok count) })
      | .failed failure => some (m.update { p with task := next (.error failure) })
      | .unread =>
        if p.ignored.contains .pipe then
          some (m.update { p with task := next (.error .brokenPipe) })
        else
          some ((m.update { p with task := next (.error .brokenPipe) }).deliver p.number .pipe)
  | .clock next => some (m.update { p with task := next m.clock })
  | .sleep time task => if time ≤ m.clock then some (m.update { p with task }) else none
  | .pipe next =>
    let (m, pipe) := m.newPipe
    let reader := p.table.free
    let table := p.table.set reader (.reader pipe)
    let writer := table.free
    some (m.update { p with table := table.set writer (.writer pipe), task := next reader writer })
  | .fork child next =>
    let number := m.next
    let m := m.update { p with task := next number }
    some { m with
      next := number + 1
      processes := m.processes ++ [{ p with number, task := child, kept := [] }] }
  | .await number next =>
    match m.process? number with
    | none => some (m.update { p with task := next (.code 127) })
    | some other => other.ending.map fun ending =>
        (m.forget number).update { p with task := next ending }
  | .keep descriptors task =>
    some (m.update { p with kept := p.table.keep descriptors :: p.kept, task })
  | .restore task =>
    match p.kept with
    | [] => some (m.update { p with task })
    | last :: kept => some (m.update { p with table := p.table.restore last, kept, task })
  | .rewire changes next =>
    let (m, table, failure) := m.rewireAll p.directory p.table changes
    some (m.update { p with table, task := next failure })
  | .become name arguments bindings search next =>
    match m.become p name arguments bindings search with
    | .ok m => some m
    | .error failure => some (m.update { p with task := next failure })
  | .signal number signal next =>
    let found := (m.process? number).isSome
    some ((m.update { p with task := next found }).deliver number signal)
  | .ignore ignored task => some (m.update { p with ignored, task })
  | .enter path next =>
    match m.files.find p.directory (unspell path) with
    | .ok (directory, .directory) =>
      some (m.update { p with directory, task := next (.ok (spell (FileTree.render directory))) })
    | .ok _ => some (m.update { p with task := next (.error .notADirectory) })
    | .error failure => some (m.update { p with task := next (.error failure) })
  | .inspect path next =>
    some (m.update { p with task := next ((m.files.find p.directory (unspell path)).map Prod.snd) })
  | .finish code => some (m.finish p (.code code))

/-- Gives a process one step; tells whether it could go on. -/
def stepProcess (m : Machine) (number : Nat) : Machine × Bool :=
  match m.process? number with
  | none => (m, false)
  | some p =>
    if p.ending.isSome then (m, false)
    else
      match m.meet p p.task.step with
      | some m => (m, true)
      | none => (m, false)

/-- The time that a round takes, in nanoseconds. -/
def roundLength : Nat := 1000

/-- Gives every process a step; tells whether any could go on. Only then the
round takes time. -/
def round (m : Machine) : Machine × Bool :=
  let (m, moved) := m.processes.foldl (fun (m, moved) p =>
    let (m, went) := m.stepProcess p.number
    (m, moved || went)) (m, false)
  if moved then ({ m with clock := m.clock + roundLength }, true) else (m, false)

/-- The moment at which the first of the sleeping processes wakes. -/
def nextWake (m : Machine) : Option Nat :=
  (m.processes.filterMap fun p =>
    match p.ending, p.task with
    | none, .pauseUntil time => some time
    | _, _ => none).min?

/-- Starts a program from outside, with its input, output and messages on pipes
whose other ends are held outside. Nothing that is passed on may hold a NUL. -/
def spawn (m : Machine) (directory : Location) (name : String) (arguments bindings : List String) :
    Except Fault (Machine × Nat × Nat × Nat × Nat) := do
  if (name :: arguments ++ bindings).any fun text => text.toList.contains '\x00' then
    throw .nulInArgument
  let (m, input) := m.newPipe
  let (m, output) := m.newPipe
  let (m, messages) := m.newPipe
  let number := m.next
  let p : Process :=
    { number, task := .report [] 0, ignored := [], directory, ending := none
      table := [(0, .reader input), (1, .writer output), (2, .writer messages)] }
  let m ← { m with next := number + 1, processes := m.processes ++ [p] }.become p name arguments
    bindings none
  let held := [.writer input, .reader output, .reader messages] ++ m.held
  return ({ m with held }, number, input, output, messages)

end LineScript.Machine
