import LineScript.Shell.Word

/-!
# Parameters of the shell

The variables that a shell knows, its arguments, and the other values that a
script can ask for. Exported variables are passed on to programs, in the order
in which the shell keeps them.
-/

namespace LineScript.Shell

/-- A variable. -/
structure Variable where
  /-- Its name. -/
  name : String
  /-- Its value. -/
  value : String
  /-- Whether programs are told of it. -/
  exported : Bool
  deriving DecidableEq, Repr

/-- The values that a shell knows. -/
structure Scope where
  /-- The variables, the oldest first. -/
  bindings : List Variable
  /-- The name of the shell or of its script. -/
  name : String
  /-- The arguments. -/
  arguments : List String
  /-- How the last command ended. -/
  status : Nat
  /-- The number of the shell's process. -/
  process : Nat
  /-- The process started last without being waited for. -/
  background : Option Nat
  /-- Names to export once they have a value. -/
  marked : List String
  /-- Names whose values stay as they are. -/
  constants : List String := []
  /-- Whether a parameter without a value is an error. -/
  demanding : Bool := false

namespace Scope

/-- The value of a variable. -/
def get? (scope : Scope) (name : String) : Option String :=
  (scope.bindings.find? fun v => v.name = name).map Variable.value

/-- Sets a variable and keeps it in its place. -/
def set (scope : Scope) (name value : String) : Scope :=
  if (scope.get? name).isSome then
    { scope with
      bindings := scope.bindings.map fun v => if v.name = name then { v with value } else v }
  else
    { scope with bindings := scope.bindings ++ [⟨name, value, scope.marked.contains name⟩] }

/-- Sets a variable, unless its value is to stay. -/
def assign (scope : Scope) (name value : String) : Except String Scope :=
  if scope.constants.contains name then .error (name ++ ": is read only")
  else .ok (scope.set name value)

/-- Keeps the value of a variable as it is. -/
def freeze (scope : Scope) (name : String) : Scope :=
  { scope with constants := name :: scope.constants }

/-- Sets a variable that programs are told of, now but not once it was
removed. -/
def setExported (scope : Scope) (name value : String) : Scope :=
  let scope := scope.set name value
  { scope with
    bindings := scope.bindings.map fun v =>
      if v.name = name then { v with exported := true } else v }

/-- Removes a variable. -/
def unset (scope : Scope) (name : String) : Scope :=
  { scope with
    bindings := scope.bindings.filter fun v => v.name ≠ name
    marked := scope.marked.filter (· ≠ name) }

/-- Exports a variable, now or once it has a value. -/
def mark (scope : Scope) (name : String) : Scope :=
  { scope with
    bindings := scope.bindings.map fun v =>
      if v.name = name then { v with exported := true } else v
    marked := name :: scope.marked }

/-- The number of shelves on which variables are kept. -/
def shelves : Nat := 39

/-- The shelf of a name. -/
def shelf (name : String) : Nat :=
  let bytes := name.toList.map Char.toNat
  bytes.foldl (· + ·) (16 * bytes.headD 0) % shelves

/-- The exported variables, shelf by shelf, each as its name, an equals sign and
its value. -/
def exports (scope : Scope) : List String :=
  (List.range shelves).flatMap fun n =>
    (scope.bindings.filter fun v => v.exported && shelf v.name = n).map fun v =>
      v.name ++ "=" ++ v.value

/-- A text in quotes, from which the shell reads the same text. -/
def quoted (text : String) : String :=
  let chars := text.toList.flatMap fun c =>
    if c = '\'' then ['\'', '"', '\'', '"', '\''] else [c]
  String.ofList ('\'' :: chars ++ ['\''])

/-- Variables after a word, in the order of their names. -/
def listed (word : String) (all : List Variable) : String :=
  let ordered := all.mergeSort fun v w => v.name ≤ w.name
  String.join (ordered.map fun v => word ++ " " ++ v.name ++ "=" ++ quoted v.value ++ "\n")

/-- The exported variables as commands that export them. -/
def exportList (scope : Scope) : String :=
  listed "export" (scope.bindings.filter Variable.exported)

/-- The variables whose values stay as they are, as commands that say so. -/
def constantList (scope : Scope) : String :=
  listed "readonly" (scope.bindings.filter fun v => scope.constants.contains v.name)

/-- The variables of every shell. -/
def usual : List Variable :=
  [⟨"IFS", " \t\n", false⟩,
    ⟨"PATH", "/usr/local/sbin:/usr/local/bin:/usr/sbin:/usr/bin:/sbin:/bin", false⟩,
    ⟨"PS1", "$ ", false⟩, ⟨"PS2", "> ", false⟩, ⟨"PS4", "+ ", false⟩, ⟨"OPTIND", "1", false⟩]

/-- Whether a text can be the name of a variable. -/
def isName (text : String) : Bool :=
  match text.toList with
  | [] => false
  | c :: rest => Word.isNameStart c && rest.all Word.isNameChar

/-- Takes in a variable that the shell was started with. One whose name no
script could write is passed over. -/
def adopt (scope : Scope) (entry : String) : Scope :=
  match entry.toList.span (· ≠ '=') with
  | (name, _ :: value) =>
    let name := String.ofList name
    if isName name then (scope.mark name).set name (String.ofList value) else scope
  | _ => scope

/-- The values of a shell at its start. -/
def initial (name : String) (arguments bindings : List String) : Scope :=
  bindings.foldl adopt
    { bindings := usual, name, arguments, status := 0, process := 0, background := none
      marked := [] }

/-- The value of a parameter, except for the list of all arguments. -/
def parameter? (scope : Scope) (name : String) : Option String :=
  match name with
  | "#" => some (toString scope.arguments.length)
  | "?" => some (toString scope.status)
  | "$" => some (toString scope.process)
  | "!" => scope.background.map toString
  | "-" => some ""
  | "0" => some scope.name
  | _ =>
    match name.toNat? with
    | some n => scope.arguments[n - 1]?
    | none => scope.get? name

end Scope

end LineScript.Shell
