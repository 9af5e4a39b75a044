import LineScript.Duration
import LineScript.Shell.Step
import LineScript.Utility.Copying

/-!
# Tasks

What a process is running: one of the utilities in some state. A task asks the
machine for one thing after the other.
-/

namespace LineScript.Machine

/-- What a process is running. -/
inductive Task where
  /-- A shell. -/
  | shell (shell : Shell)
  /-- A copy of files or of the input. -/
  | copying (copying : Utility.Copying)
  /-- It prints texts to descriptors and ends. -/
  | report (texts : List (Nat × Bytes)) (code : Nat)
  /-- It waits for so many nanoseconds and ends. -/
  | pause (nanos : Nat)
  /-- It waits for a point in time and ends. -/
  | pauseUntil (time : Nat)
  /-- It becomes another program, with these variables. -/
  | become (program : String) (arguments bindings : List String)
  /-- It finds out whether a condition holds. -/
  | test (condition : Shell.Condition)
  /-- It prints its working directory. -/
  | place
  /-- It enters a directory and goes on there. -/
  | within (path : String) (next : Task)

namespace Task

/-- A task that complains and fails. -/
def complaint (utility : Utility) (message : String) (code : Nat) : Task :=
  .report [(2, bytesOf (utility.name ++ ": " ++ message ++ "\n"))] code

/-- A task that prints a text. -/
def say (text : String) (code : Nat) : Task := .report [(1, bytesOf text)] code

/-- What a task asks for. -/
def step : Task → Request Task
  | .shell sh => (Shell.step sh).map .shell
  | .copying c => (Utility.Copying.step c).map .copying
  | .report [] code => .finish code
  | .report ((descriptor, bytes) :: rest) code =>
    if bytes.isEmpty then .proceed (.report rest code)
    else .write descriptor bytes fun answer =>
      match answer with
      | .ok n => .report ((descriptor, bytes.drop n) :: rest) code
      | .error _ => .report [] 1
  | .pause nanos => .clock fun now => .pauseUntil (now + nanos)
  | .pauseUntil time => .sleep time (.report [] 0)
  | .become program arguments bindings =>
    .become program arguments bindings none fun failure =>
      complaint .env (program ++ ": " ++ failure.message)
        (if failure = .noSuchFile then 127 else 126)
  | .test condition =>
    match condition.path? with
    | some path => .inspect path fun found => .test (condition.settle path found)
    | none => .finish (if condition.holds then 0 else 1)
  | .place => .enter "." fun answer =>
    match answer with
    | .ok path => say (path ++ "\n") 0
    | .error failure => complaint .pwd failure.message 1
  | .within path next => .enter path fun answer =>
    match answer with
    | .ok _ => next
    | .error failure => complaint .env (path ++ ": " ++ failure.message) 125

/-- What a task does at a signal, if it has a use for it. -/
def catch? : Task → Signal → Option Task
  | .shell sh, signal => (sh.catch? signal).map .shell
  | _, _ => none

/-! ## Starting utilities -/

/-- The letters of a shell's options, and the arguments after them. -/
def shellFlags (flags : List Char) : List String → List Char × List String
  | "--" :: rest => (flags, rest)
  | argument :: rest =>
    match argument.toList with
    | '-' :: c :: more => shellFlags (flags ++ c :: more) rest
    | _ => (flags, argument :: rest)
  | [] => (flags, [])

/-- The letters that a shell takes for options. -/
def shellLetters : List Char := "abceflmnsuvxCEIV".toList

/-- A shell at its start. Its program is an argument, or a file, or its
input. -/
def startShell (name : String) (arguments bindings : List String) (process : Nat)
    (place : String) : Task :=
  let (flags, rest) := shellFlags [] arguments
  let strict := flags.contains 'e'
  let scope (name : String) (arguments : List String) : Shell.Scope :=
    let scope := Shell.Scope.initial name arguments bindings
    { (scope.mark "PWD").set "PWD" place with process, demanding := flags.contains 'u' }
  if flags.any fun flag => !shellLetters.contains flag then
    complaint .shell "0: Illegal option" 2
  else if flags.contains 'c' then
    match rest with
    | [] => complaint .shell "0: -c requires an argument" 2
    | script :: rest =>
      let program := if flags.contains 'n' then [] else script.toList
      .shell { scope := scope (rest.headD name) rest.tail, program, strict, directory := place }
  else
    match flags.contains 's', rest with
    | true, _ | _, [] =>
      .shell
        { scope := scope name rest, program := [], complete := false, strict
          directory := place }
    | _, file :: rest =>
      .shell
        { scope := scope file rest, program := [], strict, directory := place
          control := .source file [file] true }

/-- The variables of a list after it was told a new one. -/
def setVariable (bindings : List String) (entry : String) : List String :=
  let name (entry : String) := entry.toList.takeWhile (· ≠ '=')
  if bindings.any fun old => name old = name entry then
    bindings.map fun old => if name old = name entry then entry else old
  else bindings ++ [entry]

/-- What the options of the variables' utility ask for. -/
structure EnvOptions where
  /-- Whether it forgets all variables. -/
  bare : Bool := false
  /-- The variables that it forgets. -/
  forgotten : List String := []
  /-- Whether it ends every variable that it prints with a NUL. -/
  nulEnds : Bool := false
  /-- The directory where the program is to run. -/
  directory : Option String := none

namespace EnvOptions

/-- The options that are written by letters, of which some take the rest of
the argument or the next argument as a value. -/
def letters (options : EnvOptions) : List Char → List String →
    Option (EnvOptions × List String)
  | [], rest => some (options, rest)
  | 'i' :: flags, rest => letters { options with bare := true } flags rest
  | '0' :: flags, rest => letters { options with nulEnds := true } flags rest
  | 'v' :: flags, rest => letters options flags rest
  | 'u' :: value, rest => (valued value rest).map fun (name, rest) =>
      ({ options with forgotten := name :: options.forgotten }, rest)
  | 'C' :: value, rest => (valued value rest).map fun (path, rest) =>
      ({ options with directory := some path }, rest)
  | _, _ => none
where
  /-- The value of an option. -/
  valued (value : List Char) (rest : List String) : Option (String × List String) :=
    match value, rest with
    | [], next :: rest => some (next, rest)
    | [], [] => none
    | value, rest => some (String.ofList value, rest)

/-- The letter of a long option. -/
def letterOf? (name : String) : Option Char :=
  [("ignore-environment", 'i'), ("null", '0'), ("debug", 'v'), ("unset", 'u'),
    ("chdir", 'C')].lookup name

/-- The options at the front of arguments, and the arguments after them. -/
def read (options : EnvOptions) : Nat → List String → Option (EnvOptions × List String)
  | 0, _ => none
  | _ + 1, [] => some (options, [])
  | fuel + 1, argument :: rest =>
    match argument.toList with
    | ['-', '-'] => some (options, rest)
    | '-' :: '-' :: long => do
      let (name, value) := long.span (· ≠ '=')
      let letter ← letterOf? (String.ofList name)
      let (options, rest) ← options.letters (letter :: value.tail) rest
      read options fuel rest
    | '-' :: flag :: flags => do
      let (options, rest) ← options.letters (flag :: flags) rest
      read options fuel rest
    | _ => some (options, argument :: rest)

end EnvOptions

/-- Variables as some options leave them. -/
def keptVariables (options : EnvOptions) (bindings : List String) : List String :=
  if options.bare then []
  else bindings.filter fun entry =>
    !options.forgotten.contains (String.ofList (entry.toList.takeWhile (· ≠ '=')))

/-- The task that runs a program with other variables, or prints them if there
is no program. -/
def startWith (options : EnvOptions) (bindings : List String) : List String → Task
  | [] =>
    let ending := if options.nulEnds then "\x00" else "\n"
    say (String.join (bindings.map (· ++ ending))) 0
  | argument :: rest =>
    if argument.toList.contains '=' then
      startWith options (setVariable bindings argument) rest
    else
      let run : Task := .become argument rest bindings
      match options.directory with
      | some path => .within path run
      | none => run

/-- The task that prints variables or runs a program with other ones. -/
def startEnv (bindings arguments : List String) : Task :=
  match EnvOptions.read {} (arguments.length + 1) arguments with
  | none => complaint .env "invalid option" 125
  | some (options, "-" :: rest) => startWith options [] rest
  | some (options, rest) => startWith options (keptVariables options bindings) rest

/-- The nanoseconds that an argument of the pausing utility asks for: a number
of seconds, or of a longer unit with its letter after it. -/
def pauseLength? (text : String) : Option Nat :=
  let chars := text.toList
  let unit? : Option Nat := match chars.getLast? with
    | some 's' => some 1
    | some 'm' => some 60
    | some 'h' => some 3600
    | some 'd' => some 86400
    | _ => none
  let digits := if unit?.isSome then chars.dropLast else chars
  match Duration.parse digits with
  | .ok d => some (d.nanos * unit?.getD 1)
  | .error _ => none

/-- The lines that the first-lines utility copies, and the files after the
options. -/
def headOptions : List String → Nat × List String
  | "-n" :: n :: rest => ((n.toNat?).getD 10, rest)
  | argument :: rest =>
    match argument.toList with
    | '-' :: 'n' :: digits => (((String.ofList digits).toNat?).getD 10, rest)
    | '-' :: digits => (((String.ofList digits).toNat?).getD 10, rest)
    | _ => (10, argument :: rest)
  | [] => (10, [])

/-- The numbers from one to another, in steps of a certain size, at most so
many. -/
def numbers (step last : Int) : Nat → Int → List Int
  | 0, _ => []
  | fuel + 1, n =>
    if (0 < step ∧ last < n) ∨ (step < 0 ∧ n < last) ∨ step = 0 then []
    else n :: numbers step last fuel (n + step)

/-- The text that the counting utility prints. -/
def counting (arguments : List String) : Option String := do
  let values ← arguments.mapM String.toInt?
  let (first, step, last) ← match values with
    | [last] => some (1, 1, last)
    | [first, last] => some (first, 1, last)
    | [first, step, last] => some (first, step, last)
    | _ => none
  let all := numbers step last ((last - first).natAbs + 1) first
  return String.join (all.map fun n => toString n ++ "\n")

/-- The task that a utility begins with, in a process of some number. The first
argument is the name under which it was started. -/
def start (utility : Utility) (arguments bindings : List String) (process : Nat)
    (place : String) : Task :=
  let name := arguments.headD utility.name
  let arguments := arguments.tail
  match utility with
  | .shell => startShell name arguments bindings process place
  | .cat =>
    match Utility.Copying.options {} arguments with
    | some (marks, files) => .copying (Utility.Copying.ofFiles marks files)
    | none => complaint .cat "invalid option" 1
  | .env => startEnv bindings arguments
  | .sleep =>
    match arguments.mapM pauseLength? with
    | some (n :: rest) => .pause (rest.foldl (· + ·) n)
    | _ => complaint .sleep "invalid time interval" 1
  | .echo =>
    match arguments with
    | "-n" :: rest => say (" ".intercalate rest) 0
    | rest => say (" ".intercalate rest ++ "\n") 0
  | .printf =>
    match arguments with
    | [] => complaint .printf "missing operand" 1
    | form :: rest =>
      let (text, good) := Shell.Printing.formatted form rest
      say text (if good then 0 else 1)
  | .test =>
    let words := if name.endsWith "[" then Shell.bracketed? arguments else some arguments
    match words.bind Shell.Condition.ofWords? with
    | some condition => .test condition
    | none => complaint .test "bad condition" 2
  | .pwd => .place
  | .head =>
    let (wanted, files) := headOptions arguments
    .copying { Utility.Copying.ofFiles {} files with wanted := some wanted }
  | .seq =>
    match counting arguments with
    | some text => say text 0
    | none => complaint .seq "invalid argument" 1
  | .succeed => .report [] 0
  | .fail => .report [] 1

end Task

end LineScript.Machine
