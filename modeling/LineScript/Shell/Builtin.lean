import LineScript.Machine.Program
import LineScript.Shell.Printing
import LineScript.Shell.State

/-!
# Commands of the shell's own

The commands that the shell carries out without starting a program.
-/

namespace LineScript.Shell

open Machine

/-- Whether a command of the shell's own is a special one: a failure of it ends
the shell, and assignments before it last beyond it. -/
def isSpecial (name : String) : Bool :=
  [":", ".", "break", "continue", "eval", "exec", "exit", "export", "local", "readonly", "return",
    "set", "shift", "times", "trap", "unset"].contains name

/-- The number that a text writes, or why it does not. -/
def numberOf (text : String) : Except String Nat :=
  match text.toNat? with
  | some n => .ok n
  | none => .error ("Illegal number: " ++ text)

/-- A number that the first argument writes, or another one without it. -/
def count (arguments : List String) (usual : Nat) : Except String Nat :=
  match arguments with
  | [] => .ok usual
  | text :: _ => numberOf text

/-- Complains if a text cannot be the name of a variable. -/
def checkName (text : String) : Except String Unit :=
  if Scope.isName text then .ok () else .error (text ++ ": bad variable name")

/-- Sets the variables that arguments assign to, and does something with the
name of every argument. -/
def declare (scope : Scope) (arguments : List String) (mark : Scope → String → Scope) :
    Except String Scope :=
  arguments.foldlM (fun scope argument => do
    let (name, value) := argument.toList.span (· ≠ '=')
    let name := String.ofList name
    checkName name
    match value with
    | _ :: value => return mark (← scope.assign name (String.ofList value)) name
    | [] => return mark scope name) scope

/-- Switches options on or off. Those that change nothing here are passed
over. -/
def switch (sh : Shell) (on : Bool) (flags : List Char) : Shell :=
  let strict := if flags.contains 'e' then on else sh.strict
  let demanding := if flags.contains 'u' then on else sh.scope.demanding
  { sh with strict, scope := { sh.scope with demanding } }

/-- The letters of the options. -/
def switches : List Char := "aefuvxmnCIVEbips".toList

/-- The letter of an option's long name. -/
def flagOf (name : String) : List Char :=
  if name = "errexit" then ['e'] else if name = "nounset" then ['u'] else []

/-- Sets options or arguments. -/
def setAll (sh : Shell) : List String → Except String Shell
  | [] => .ok sh
  | "--" :: arguments => .ok { sh with scope := { sh.scope with arguments } }
  | "-o" :: name :: rest => setAll (switch sh true (flagOf name)) rest
  | "+o" :: name :: rest => setAll (switch sh false (flagOf name)) rest
  | option :: rest =>
    let change (on : Bool) (flags : List Char) : Except String Shell :=
      if flags.all switches.contains then setAll (switch sh on flags) rest
      else .error ("Illegal option " ++ option)
    match option.toList with
    | '-' :: flags => change true flags
    | '+' :: flags => change false flags
    | _ => .ok { sh with scope := { sh.scope with arguments := option :: rest } }

/-- The names before the equals signs of arguments. -/
def namesOf (arguments : List String) : List String :=
  arguments.map fun argument => String.ofList (argument.toList.takeWhile (· ≠ '='))

/-- Puts something to be done after the named command that is running, if one
is. -/
def afterCall? (frame : Frame) : List Frame → Option (List Frame)
  | [] => none
  | .call arguments :: frames => some (.call arguments :: frame :: frames)
  | other :: frames => (afterCall? frame frames).map (other :: ·)

/-- Sets variables that have their earlier values again after the named command
that is running. -/
def setLocal (sh : Shell) (arguments : List String) : Except String Shell :=
  let saved := (namesOf arguments).map fun name =>
    (name, sh.scope.bindings.find? fun v => v.name = name)
  match afterCall? (.bindings saved) sh.frames with
  | none => .error "not in a function"
  | some frames => do
    let scope ← declare sh.scope arguments fun scope _ => scope
    return { sh with scope, frames }

/-- Removes variables, or named commands. -/
def unset (sh : Shell) (arguments : List String) : Except String Shell :=
  let names := arguments.filter fun a => a ≠ "-v" ∧ a ≠ "-f"
  if arguments.contains "-f" then
    .ok { sh with functions := sh.functions.filter fun f => !names.contains f.1 }
  else do
    names.forM checkName
    match names.find? sh.scope.constants.contains with
    | some name => throw (name ++ ": is read only")
    | none => return { sh with scope := names.foldl Scope.unset sh.scope }

/-- The signal, or the end, that a trap is set for. -/
def occasion? (text : String) : Option (Option Signal) :=
  if text = "EXIT" ∨ text = "0" then some none else (Signal.ofText? text).map some

/-- Sets what is to be done at some occasions. -/
def setTraps (sh : Shell) (action : Option String) (occasions : List (Option Signal)) : Shell :=
  let kept := sh.traps.filter fun trap => !occasions.contains trap.1
  let fresh := match action with
    | some text => occasions.map fun occasion => (occasion, text)
    | none => []
  { sh with traps := fresh ++ kept }

/-- The traps as commands that set them. -/
def trapList (sh : Shell) : String :=
  let line (occasion : Option Signal) (name : String) : List String :=
    (sh.traps.lookup occasion).toList.map fun action =>
      "trap -- " ++ Scope.quoted action ++ " " ++ name ++ "\n"
  String.join (line none "EXIT" ++ Signal.all.flatMap fun signal => line (some signal) signal.name)

/-- Carries out the setting of traps. -/
def trap (sh : Shell) (arguments : List String) : Shell :=
  match arguments with
  | [] => sh.say (trapList sh) 0
  | [occasion] =>
    ((occasion? occasion).toList.foldl (fun sh o => setTraps sh none [o]) sh).doing .ignoring
  | action :: occasions =>
    match occasions.mapM occasion? with
    | none => sh.complain "trap: bad trap" 1
    | some all => (setTraps sh (if action = "-" then none else some action) all).doing .ignoring

/-- The options and the names of a reading command: whether backslashes stand
for themselves. -/
def readOptions (raw : Bool) : List String → Bool × List String
  | "-r" :: rest => readOptions true rest
  | "-p" :: _ :: rest => readOptions raw rest
  | "--" :: rest => (raw, rest)
  | names => (raw, names)

/-- The signal and the processes of a killing command; no signal only asks
whether a process is there. -/
def killOptions (arguments : List String) : Option (Option Signal × List String) :=
  let chosen (text : String) : Option (Option Signal) :=
    if text = "0" then some none else (Signal.ofText? text).map some
  match arguments with
  | "-s" :: name :: rest => (chosen name).map fun signal => (signal, rest)
  | "--" :: rest => some (some .terminate, rest)
  | first :: rest =>
    match first.toList with
    | '-' :: name => (chosen (String.ofList name)).map fun signal => (signal, rest)
    | _ => some (some .terminate, arguments)
  | [] => none

/-- The words of a test in brackets, without the closing one. -/
def bracketed? (arguments : List String) : Option (List String) :=
  if arguments.getLast? = some "]" then some arguments.dropLast else none

/-- Finds out whether the condition that words write holds. -/
def testWords (sh : Shell) (words : Option (List String)) : Shell :=
  match words.bind Condition.ofWords? with
  | some condition => sh.doing (.test condition)
  | none => sh.complain "test: unexpected operator" 2

/-- The options of a command that changes the working directory: whether the
path is followed as it is written. What follows the options is left. -/
def enterOptions (written : Bool) : List String → Bool × List String
  | "-L" :: rest => enterOptions true rest
  | "-P" :: rest => enterOptions false rest
  | "--" :: rest => (written, rest)
  | arguments => (written, arguments)

/-- Carries out a change of the working directory. A dash is the directory that
was left last, and nothing at all is home. -/
def enter (sh : Shell) (arguments : List String) : Shell :=
  match enterOptions true arguments with
  | (written, []) => sh.doing (.enter ((sh.scope.get? "HOME").getD "") written false)
  | (written, "-" :: _) => sh.doing (.enter ((sh.scope.get? "OLDPWD").getD "") written true)
  | (written, path :: _) => sh.doing (.enter path written false)

/-- The places at which a file of commands may be. -/
def sources (sh : Shell) (name : String) : List String :=
  if name.toList.contains '/' then [name]
  else
    (((sh.scope.get? "PATH").getD "").toList.splitOnP (· = ':')).map fun place =>
      Program.join (String.ofList place) name

/-- A shell that runs a text of commands. -/
def evaluate (sh : Shell) (text : List Char) : Shell :=
  match Reading.of true text with
  | .blank => sh.doing (.finished 0)
  | _ => sh.doing (.script text)

/-- Carries out a command that leads out of loops. No loop at all is no
failure. -/
def leaveLoops (sh : Shell) (wanted : Nat) (goal : Nat → Goal) : Shell :=
  match min wanted (loops sh.outerLoops sh.frames) with
  | 0 => sh.doing (.finished 0)
  | n => sh.doing (.unwind (goal n))

/-- Waits for some processes that were left alone, or for all. -/
def waitFor (sh : Shell) (arguments : List String) : Except String Shell :=
  match arguments with
  | [] => .ok (sh.doing (.linger sh.jobs false 0))
  | _ => do return sh.doing (.linger (← arguments.mapM numberOf) true 127)

/-- A shell that carries out a command of its own, if there is one of that
name. Its failure may be fatal. -/
def builtin? (sh : Shell) (name : String) (arguments : List String) (fatal : Bool) :
    Option Shell :=
  let attempt (result : Except String Shell) : Shell :=
    match result with
    | .ok sh => sh
    | .error message => sh.fault fatal (name ++ ": " ++ message)
  let done (sh : Shell) : Shell := sh.doing (.finished 0)
  match name with
  | ":" | "true" | "umask" | "hash" | "type" | "ulimit" | "times" | "jobs" | "alias"
  | "unalias" => some (done sh)
  | "false" => some (sh.doing (.finished 1))
  | "echo" => some (sh.say (Printing.echo arguments) 0)
  | "printf" =>
    match if arguments.head? = some "--" then arguments.tail else arguments with
    | [] => some (sh.complain "printf: usage: printf format [arg ...]" 2)
    | form :: rest =>
      let (text, good) := Printing.formatted form rest
      some (sh.say text (if good then 0 else 1))
  | "test" => some (testWords sh (some arguments))
  | "[" => some (testWords sh (bracketed? arguments))
  | "pwd" => some (sh.say (sh.directory ++ "\n") 0)
  | "cd" => some (enter sh arguments)
  | "read" =>
    let (raw, names) := readOptions false arguments
    if names.isEmpty then some (sh.complain "read: arg count" 2)
    else
      some (attempt ((names.forM checkName).map fun _ => sh.doing (.readLine names raw [] false)))
  | "exit" =>
    some (attempt ((count arguments sh.scope.status).map fun n => sh.doing (.exit (n % 256))))
  | "return" =>
    some (attempt ((count arguments sh.scope.status).map fun n => sh.doing (.unwind (.back n))))
  | "break" => some (attempt ((count arguments 1).map fun n => leaveLoops sh n .leave))
  | "continue" => some (attempt ((count arguments 1).map fun n => leaveLoops sh n .again))
  | "export" =>
    match arguments.filter (· ≠ "-p") with
    | [] => some (sh.say sh.scope.exportList 0)
    | arguments =>
      some (attempt ((declare sh.scope arguments Scope.mark).map fun scope =>
        done { sh with scope }))
  | "readonly" =>
    match arguments.filter (· ≠ "-p") with
    | [] => some (sh.say sh.scope.constantList 0)
    | arguments =>
      some (attempt ((declare sh.scope arguments Scope.freeze).map fun scope =>
        done { sh with scope }))
  | "local" => some (attempt ((setLocal sh arguments).map done))
  | "unset" => some (attempt ((unset sh arguments).map done))
  | "set" => some (attempt ((setAll sh arguments).map done))
  | "shift" =>
    some (attempt ((count arguments 1).bind fun n =>
      if sh.scope.arguments.length < n then .error "can't shift that many"
      else .ok (done { sh with
        scope := { sh.scope with arguments := sh.scope.arguments.drop n } })))
  | "eval" => some (evaluate sh (" ".intercalate arguments).toList)
  | "." =>
    match arguments with
    | [] => some (done sh)
    | name :: _ => some (sh.doing (.source name (sources sh name) fatal))
  | "trap" => some (trap sh arguments)
  | "kill" =>
    match killOptions arguments with
    | some (signal, targets) =>
      match targets.mapM String.toNat? with
      | some processes => some (sh.doing (.kill signal processes 0))
      | none => some (sh.complain "kill: Illegal number" 2)
    | none => some (sh.complain "kill: usage: kill [-s sigspec] pid ..." 2)
  | "wait" => some (attempt (waitFor sh arguments))
  | _ => none

end LineScript.Shell
