import LineScript.Shell.Builtin

/-!
# Simple commands

What becomes of a command that is a row of words, perhaps with assignments and
redirections. Once it is filled in, the shell runs it itself if it is one of its
own or was given a name, and in a process of its own otherwise.
-/

namespace LineScript.Shell

open Machine

/-! ## Filling in -/

/-- The change of descriptors that a redirection asks for. -/
def rewire (redirect : Redirect) : Expand Rewire := do
  let target ← Expand.text redirect.target
  match redirect.kind with
  | .input => return .openFile redirect.descriptor target .reading
  | .output => return .openFile redirect.descriptor target .writing
  | .append => return .openFile redirect.descriptor target .appending
  | .document => return .supply redirect.descriptor (bytesOf target)
  | .duplicate =>
    if target = "-" then return .close redirect.descriptor
    else
      match target.toNat? with
      | some source => return .copy redirect.descriptor source
      | none => Expand.fail "Bad fd number"

/-- What a simple command comes down to. -/
structure Prepared where
  /-- Its name and its arguments. -/
  words : List String
  /-- The changes of descriptors. -/
  changes : List Rewire
  /-- The variables that are set. -/
  assignments : List (String × String)

/-- The commands that declare variables. -/
def declaring : List String := ["export", "readonly", "local"]

/-- Fills in a simple command. Without a name its assignments take effect at
once. -/
def prepare (assignments : List (String × Word)) (words : List Word)
    (redirects : List Redirect) : Expand Prepared := do
  let declares := match words with
    | word :: _ => ((Word.bare? word).map declaring.contains).getD false
    | [] => false
  let filled ← Expand.fields words declares
  let changes ← redirects.mapM rewire
  let values ← assignments.mapM fun (name, value) => do
    let text ← Expand.text value
    if filled.isEmpty then Expand.assign name text
    else if (← get).scope.constants.contains name then
      Expand.fail (name ++ ": is read only")
    return (name, text)
  return ⟨filled, changes, values⟩

/-- The body of the first arm with a pattern that a text matches. -/
def firstArm (text : String) : List (List Word × Command) → Expand Command
  | [] => return .nothing
  | (forms, body) :: rest => do
    let patterns ← forms.mapM Expand.pattern
    if patterns.any fun pattern => pattern.covers text.toList then return body
    firstArm text rest

/-- Goes on with a command once its words are filled in. If an output is
missing the shell turns to that, and if filling in fails it ends. -/
def fill {α : Type} (sh : Shell) (command : Command) (outputs : List Output)
    (action : Expand α) (go : Shell → α → Shell) : Shell :=
  match action.run ⟨sh.scope, outputs⟩ with
  | .ok (result, filling) => go { sh with scope := filling.scope } result
  | .error (.output script) => sh.doing (.capture command outputs script)
  | .error (.failed message) => sh.doing (.print 2 (sh.complaint message) (.exit 2))

/-! ## Simple commands -/

/-- A shell whose variables are set and exported for a program. -/
def exporting (sh : Shell) (assignments : List (String × String)) : Shell :=
  { sh with
    scope := assignments.foldl (fun scope (name, value) => (scope.mark name).set name value)
      sh.scope }

/-- A shell whose variables are set for a command of its own, and perhaps only
for that. -/
def assigning (sh : Shell) (assignments : List (String × String)) (lasting : Bool) : Shell :=
  let each (set : Scope → String → String → Scope) : Scope :=
    assignments.foldl (fun scope (name, value) => set scope name value) sh.scope
  if lasting then { sh with scope := each Scope.set }
  else if assignments.isEmpty then sh
  else
    let saved := assignments.map fun (name, _) =>
      (name, sh.scope.bindings.find? fun v => v.name = name)
    { sh.push (.bindings saved) with scope := each Scope.setExported }

/-- A shell that does what it was about to do, with changed descriptors. A
failure to change them may be fatal. -/
def redirecting (sh : Shell) (changes : List Rewire) (fatal : Bool) : Shell :=
  if changes.isEmpty then sh else sh.doing (.save changes sh.control fatal)

/-- Whether a shell has nothing to do after what it is doing now. -/
def isLast (sh : Shell) : Bool :=
  sh.frames.isEmpty && sh.traps.isEmpty && sh.jobs.isEmpty && sh.complete &&
    sh.program.all fun c => c = ' ' || c = '\t' || c = '\n'

/-- Runs a program in a process of its own, or in place of the shell if there
is nothing to do after it. -/
def runProgram (sh : Shell) (p : Prepared) : Request Shell :=
  let begin (sh : Shell) (run : Shell → Control → Shell) : Shell :=
    run (exporting sh p.assignments) (.rewire p.changes (.become p.words))
  if isLast sh then .proceed (begin sh doing)
  else .fork (begin sh copy) fun process => sh.doing (.wait [process] 0)

/-- Runs a command that has no name given to it: one of the shell's own, which
may be a special one, or a program. -/
def runOwn (sh : Shell) (p : Prepared) (special : Bool) : Request Shell :=
  match p.words with
  | [] => .proceed (redirecting (sh.doing (.finished 0)) p.changes false)
  | "exec" :: words =>
    let next := if words.isEmpty then .finished 0 else .become words
    .proceed ((exporting sh p.assignments).doing (.rewire p.changes next special))
  | name :: arguments =>
    match builtin? (assigning sh p.assignments special) name arguments special with
    | some sh => .proceed (redirecting sh p.changes special)
    | none => runProgram sh p

/-- The words of a command after the options that precede its name. -/
def withoutOptions : List String → List String
  | "-p" :: words => withoutOptions words
  | "--" :: words => words
  | words => words

/-- Runs a simple command that was filled in. -/
def runPrepared (sh : Shell) (outputs : List Output) (p : Prepared) : Request Shell :=
  match p.words with
  | [] =>
    let status := (outputs.getLast?.map Output.status).getD 0
    .proceed (redirecting (sh.doing (.finished status)) p.changes false)
  | "command" :: words => runOwn sh { p with words := withoutOptions words } false
  | name :: arguments =>
    if isSpecial name then runOwn sh p true
    else
      match sh.functions.lookup name with
      | some body =>
        let sh := assigning sh p.assignments false
        let scope := { sh.scope with arguments }
        let sh := { sh.push (.call sh.scope.arguments) with scope }
        .proceed (redirecting (sh.doing (.run body [])) p.changes false)
      | none => runOwn sh p false

end LineScript.Shell
