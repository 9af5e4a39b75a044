import LineScript.Shell.Intake
import LineScript.Shell.Simple

/-!
# Steps of a shell

What a shell asks the machine for in each of its states. The commands of a
pipeline, and those in parentheses, run in copies of the shell.
-/

namespace LineScript.Shell

open Machine

/-! ## Commands -/

/-- Starts a command. -/
def start (sh : Shell) (command : Command) (outputs : List Output) : Request Shell :=
  let run (body : Command) (frame : Frame) := .proceed ((sh.push frame).doing (.run body []))
  match command with
  | .nothing => .proceed (sh.doing (.finished 0))
  | .simple assignments words redirects =>
    match (prepare assignments words redirects).run ⟨sh.scope, outputs⟩ with
    | .ok (prepared, filling) =>
      runPrepared { sh with scope := filling.scope } outputs prepared
    | .error _ =>
      .proceed (fill sh command outputs (prepare assignments words redirects) fun sh _ => sh)
  | .sequence first second => run first (.sequence second)
  | .background body =>
    .fork (sh.copy (.rewire [.openFile 0 "/dev/null" .reading] (.run body [])))
      fun process =>
        let scope := { sh.scope with background := some process }
        { sh with scope, jobs := sh.jobs ++ [process] }.doing (.finished 0)
  | .conditional onSuccess first second => run first (.conditional onSuccess second)
  | .negated body => run body .negated
  | .pipeline commands => .proceed (sh.doing (.stage commands none []))
  | .choice condition body otherwise => run condition (.choice body otherwise)
  | .loop untilTrue condition body => run condition (.loopTest untilTrue condition body 0)
  | .each name words body =>
    match words with
    | none => .proceed (sh.doing (.each name sh.scope.arguments body 0))
    | some words =>
      .proceed (fill sh command outputs (Expand.fields words) fun sh filled =>
        sh.doing (.each name filled body 0))
  | .select subject arms =>
    let choose : Expand Command := do firstArm (← Expand.text subject) arms
    .proceed (fill sh command outputs choose fun sh body => sh.doing (.run body []))
  | .subshell body =>
    .fork (sh.part (.run body [])) fun process => sh.doing (.wait [process] 0)
  | .redirected body redirects =>
    .proceed (fill sh command outputs (redirects.mapM rewire) fun sh changes =>
      sh.doing (.save changes (.run body [])))
  | .define name body =>
    .proceed ({ sh with functions := (name, body) :: sh.functions }.doing (.finished 0))

/-- Turns to what is left to do after a command. -/
def resume (sh : Shell) (status : Nat) : Request Shell :=
  match sh.frames with
  | [] => .proceed (sh.doing .advance)
  | frame :: frames =>
    let rest := { sh with frames }
    match frame with
    | .sequence second => .proceed (rest.doing (.run second []))
    | .conditional onSuccess second =>
      .proceed (rest.doing (if (status = 0) = onSuccess then .run second [] else .settled status))
    | .negated => .proceed (rest.doing (.settled (if status = 0 then 1 else 0)))
    | .choice body otherwise =>
      .proceed (rest.doing (.run (if status = 0 then body else otherwise) []))
    | .loopTest untilTrue condition body last =>
      if (status = 0) = !untilTrue then
        .proceed ((rest.push (.loopBody untilTrue condition body)).doing (.run body []))
      else .proceed (rest.doing (.settled last))
    | .loopBody untilTrue condition body =>
      .proceed ((rest.push (.loopTest untilTrue condition body status)).doing
        (.run condition []))
    | .each name words body => .proceed (rest.doing (.each name words body status))
    | .restore => .restore (rest.doing (.settled status))
    | .bindings saved => .proceed ((restoreVariables rest saved).doing (.settled status))
    | .call arguments =>
      let scope := { rest.scope with arguments }
      .proceed ({ rest with scope }.doing (.finished status))
    | .script text => .proceed (rest.doing (.script text))
    | .sourced => .proceed (rest.doing (.finished status))
    | .resumed command outputs text earlier =>
      let scope := { rest.scope with status := earlier }
      let outputs := outputs ++ [({ text, status } : Output)]
      .proceed ({ rest with scope }.doing (.run command outputs))
    | .handled after => .proceed (rest.doing after)
    | .exiting code => .proceed (rest.doing (.exit code))

/-- Turns to a signal that came in, or to what is left to do after a command, or
to the end if the command failed in a strict shell that does not forgive it. -/
def finish (sh : Shell) (status : Nat) (forgiven : Bool) : Request Shell :=
  let sh := { sh with scope := { sh.scope with status } }
  match sh.pending with
  | signal :: pending =>
    let sh := { sh with pending }
    match sh.traps.lookup (some signal) with
    | some action => .proceed ((sh.push (.handled sh.control)).doing (.script action.toList))
    | none => .proceed sh
  | [] => if status = 0 ∨ forgiven then resume sh status else .proceed (sh.doing (.exit status))

/-! ## Early ends -/

/-- Takes an early end past one frame. -/
def unwind (sh : Shell) (goal : Goal) : Request Shell :=
  match sh.frames with
  | [] =>
    match goal with
    | .back status => .proceed (sh.doing (.exit status))
    | _ => .proceed (sh.doing (.exit 0))
  | frame :: frames =>
    let rest := { sh with frames }
    let loop (again : Control) : Request Shell :=
      match goal with
      | .leave loops =>
        .proceed (rest.doing (if loops ≤ 1 then .finished 0 else .unwind (.leave (loops - 1))))
      | .again loops =>
        .proceed (rest.doing (if loops ≤ 1 then again else .unwind (.again (loops - 1))))
      | .back _ => .proceed (rest.doing (.unwind goal))
    match frame with
    | .restore => .restore (rest.doing (.unwind goal))
    | .bindings saved => .proceed ((restoreVariables rest saved).doing (.unwind goal))
    | .call arguments =>
      let scope := { rest.scope with arguments }
      let next := match goal with
        | .back status => .finished status
        | _ => .unwind goal
      .proceed ({ rest with scope }.doing next)
    | .sourced =>
      .proceed (rest.doing (match goal with
        | .back status => .finished status
        | _ => .unwind goal))
    | .loopTest untilTrue condition body _ | .loopBody untilTrue condition body =>
      loop (.run (.loop untilTrue condition body) [])
    | .each name words body => loop (.each name words body 0)
    | _ => .proceed (rest.doing (.unwind goal))

/-- Ends, after what is to be done at the end. -/
def exit (sh : Shell) (code : Nat) : Request Shell :=
  let sh := { sh with scope := { sh.scope with status := code } }
  match sh.traps.lookup none with
  | some action =>
    let traps := sh.traps.filter fun trap => trap.1.isSome
    .proceed ({ sh with traps, frames := [.exiting code] }.doing (.script action.toList))
  | none => .finish code

/-! ## All steps -/

/-- The characters that spell bytes, without NULs. -/
def spelledChars (bytes : Bytes) : List Char :=
  (spellBytes (bytes.filter (· ≠ 0))).toList

/-- Turns to the next line of the program, which may have to be read first. -/
def nextLine (sh : Shell) : Request Shell :=
  let fetch : Request Shell :=
    if sh.complete then .proceed (sh.doing (.exit sh.scope.status))
    else .read 0 8192 fun answer =>
      match answer with
      | .ok (b :: bytes) => { sh with program := sh.program ++ spelledChars (b :: bytes) }
      | _ => { sh with complete := true }
  match Reading.of sh.complete sh.program with
  | .blank | .incomplete => fetch
  | .line command program => .proceed ({ sh with program }.doing (.run command []))
  | .malformed => .proceed (sh.doing (.print 2 (sh.complaint "Syntax error") (.exit 2)))

/-- Turns to the next line of a text. -/
def nextOf (sh : Shell) (text : List Char) : Shell :=
  match Reading.of true text with
  | .blank => sh.doing (.finished sh.scope.status)
  | .line command rest => (sh.push (.script rest)).doing (.run command [])
  | _ => sh.doing (.print 2 (sh.complaint "Syntax error") (.exit 2))

/-- The descriptor through which a shell reads a file of commands. -/
def scriptDescriptor : Nat := 10

/-- The path to which a path leads from a directory as it is written, without
regard to links. Two slashes at the beginning, but not three, stay. -/
def resolve (directory path : String) : String :=
  let slash := if directory.endsWith "/" then "" else "/"
  let whole := if FileTree.isAbsolute path then path else directory ++ slash ++ path
  let names := (FileTree.components whole).foldl (fun names name =>
    if name = "" ∨ name = "." then names
    else if name = ".." then names.dropLast
    else names ++ [name]) []
  let root := if whole.startsWith "//" ∧ !whole.startsWith "///" then "//" else "/"
  root ++ "/".intercalate names

/-- Changes the input and output of a command in a pipeline. -/
def plumb (input output : Option Nat) (closing : List Nat) : List Rewire :=
  let reading := input.toList.flatMap fun d => [.copy 0 d, .close d]
  let writing := output.toList.flatMap fun d => [.copy 1 d, .close d]
  reading ++ writing ++ closing.map .close

/-- Reports that a program could not be started, and ends. -/
def notStarted (sh : Shell) (words : List String) (failure : Fault) : Shell :=
  let name := words.headD ""
  if failure = .execFormat then sh.doing (.become ("/bin/sh" :: words))
  else if failure = .noSuchFile then
    sh.doing (.print 2 (sh.complaint (name ++ ": not found")) (.exit 127))
  else sh.doing (.print 2 (sh.complaint (name ++ ": " ++ failure.message)) (.exit 126))

/-- What a shell asks for. -/
def step (sh : Shell) : Request Shell :=
  match sh.control with
  | .run command outputs => start sh command outputs
  | .finished status => finish sh status sh.isForgiving
  | .settled status => finish sh status true
  | .advance => nextLine sh
  | .script text => .proceed (nextOf sh text)
  | .print descriptor bytes next =>
    if bytes.isEmpty then .proceed (sh.doing next)
    else .write descriptor bytes fun answer =>
      match answer with
      | .ok n => sh.doing (.print descriptor (bytes.drop n) next)
      | .error _ => sh.doing (if descriptor = 2 then next else .finished 1)
  | .rewire changes next fatal => .rewire changes fun failure =>
      match failure with
      | none => sh.doing next
      | some cause => sh.fault fatal cause.message
  | .save changes next fatal =>
    .keep (changes.map Rewire.descriptor).eraseDups
      ((sh.push .restore).doing (.rewire changes next fatal))
  | .capture command outputs script => .pipe fun reader writer =>
      sh.doing (.launch command outputs script reader writer)
  | .launch command outputs script reader writer =>
    let child := sh.copy (.rewire (plumb none (some writer) [reader]) .advance)
    .fork { child with program := script.toList } fun process =>
      sh.doing (.rewire [.close writer] (.collect command outputs reader process []))
  | .collect command outputs reader process received => .read reader 65536 fun answer =>
      match answer with
      | .ok (b :: bytes) =>
        sh.doing (.collect command outputs reader process (received ++ b :: bytes))
      | _ =>
        let output := String.ofList (spelledChars received)
        (sh.push (.resumed command outputs output sh.scope.status)).doing
          (.rewire [.close reader] (.wait [process] 0))
  | .stage commands input processes =>
    match commands with
    | [] => .proceed (sh.doing (.wait processes 0))
    | [command] =>
      .fork (sh.part (.rewire (plumb input none []) (.run command []))) fun process =>
        sh.doing (.rewire (input.toList.map .close) (.wait (processes ++ [process]) 0))
    | command :: rest => .pipe fun reader writer =>
        sh.doing (.stageInto command rest input reader writer processes)
  | .stageInto command rest input reader writer processes =>
    .fork (sh.part (.rewire (plumb input (some writer) [reader]) (.run command [])))
      fun process =>
        sh.doing (.rewire (.close writer :: input.toList.map .close)
          (.stage rest (some reader) (processes ++ [process])))
  | .wait processes status =>
    match processes with
    | [] => .proceed (sh.doing (.finished status))
    | process :: rest => .await process fun ending => sh.doing (.wait rest ending.status)
  | .linger processes named status =>
    match processes with
    | [] => .proceed (sh.doing (.finished (if named then status else 0)))
    | process :: rest =>
      if sh.jobs.contains process then
        .await process fun ending =>
          { sh with
            jobs := sh.jobs.erase process
            results := (process, ending.status) :: sh.results }.doing
              (.linger rest named ending.status)
      else .proceed (sh.doing (.linger rest named ((sh.results.lookup process).getD status)))
  | .become words =>
    match words with
    | [] => .proceed (sh.doing (.finished 0))
    | name :: arguments =>
      .become name arguments sh.scope.exports (some ((sh.scope.get? "PATH").getD ""))
        fun failure => notStarted sh words failure
  | .readLine names raw line escaped => .read 0 1 fun answer =>
      match answer with
      | .ok (byte :: _) => readByte sh names raw line escaped byte
      | _ => takeLine sh names line 1
  | .each name words body status =>
    match words with
    | [] => .proceed (sh.doing (.settled status))
    | word :: rest =>
      match sh.scope.assign name word with
      | .ok scope => .proceed (({ sh with scope }.push (.each name rest body)).doing (.run body []))
      | .error message => .proceed (sh.refuse message)
  | .test condition =>
    match condition.path? with
    | some path => .inspect path fun found => sh.doing (.test (condition.settle path found))
    | none => .proceed (sh.doing (.finished (if condition.holds then 0 else 1)))
  | .kill signal processes status =>
    match processes, signal with
    | [], _ | _, none => .proceed (sh.doing (.finished status))
    | process :: rest, some which => .signal process which fun done =>
        sh.doing (.kill signal rest (if done then status else 1))
  | .ignoring => .ignore sh.ignored (sh.doing (.finished 0))
  | .enter path written telling =>
    let goal := if written then resolve sh.directory path else path
    .enter goal fun answer =>
      match answer with
      | .ok place =>
        let directory := if written then goal else place
        let scope := (sh.scope.mark "OLDPWD").set "OLDPWD" sh.directory
        let scope := (scope.mark "PWD").set "PWD" directory
        { sh with scope, directory }.say (if telling then directory ++ "\n" else "") 0
      | .error _ => sh.complain ("cd: can't cd to " ++ path) 2
  | .source name paths fatal =>
    match paths with
    | [] => .proceed (sh.fault fatal (name ++ ": not found"))
    | path :: rest => .rewire [.openFile scriptDescriptor path .reading] fun failure =>
        match failure with
        | none => (sh.push .sourced).doing (.load [])
        | some _ => sh.doing (.source name rest fatal)
  | .load received => .read scriptDescriptor 65536 fun answer =>
      match answer with
      | .ok (b :: bytes) => sh.doing (.load (received ++ b :: bytes))
      | _ =>
        let sh := evaluate sh (spelledChars received)
        sh.doing (.rewire [.close scriptDescriptor] sh.control)
  | .unwind goal => unwind sh goal
  | .exit code => exit sh code

end LineScript.Shell
