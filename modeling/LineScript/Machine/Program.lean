import LineScript.FileTree
import LineScript.Machine.Spelling

/-!
# Programs

How the machine finds the program that a name or a path denotes. A file can be
a program if it is executable and begins with a line that names an interpreter;
other text files only are when they are found on a search path, and then the
shell interprets them. All names are spelled.
-/

namespace LineScript.Machine

/-- A utility and its arguments, the first of which is the name under which it
is started. -/
structure Program where
  /-- The utility. -/
  utility : Utility
  /-- Its arguments. -/
  arguments : List String
  deriving DecidableEq, Repr

namespace Program

/-- How many interpreters may stand one behind the other. -/
def interpreterLimit : Nat := 5

/-- The bytes that begin the line with the interpreter. -/
def interpreterMark : Bytes := Utf8.ofString "#!"

/-- The interpreter that a file names, and the argument that is passed to it
before the file. -/
def interpreter? (content : Bytes) : Option (String × List String) :=
  if interpreterMark.isPrefixOf content then
    let line := ((content.drop 2).takeWhile (· ≠ 0x0A)).take 254
    let blank (c : Char) : Bool := c = ' ' || c = '\t'
    let text := ((spellBytes line).toList.dropWhile blank).reverse.dropWhile blank |>.reverse
    let (name, rest) := text.span fun c => !blank c
    if name.isEmpty then none
    else
      let argument := rest.dropWhile blank
      some (String.ofList name, if argument.isEmpty then [] else [String.ofList argument])
  else none

/-- The program at a path, behind at most so many interpreters. -/
def atPath (tree : FileTree) (directory : Location) :
    Nat → String → List String → Except Fault Program
  | limit, path, arguments => do
    let (_, entry) ← tree.find directory (unspell path)
    match entry with
    | .utility utility => return ⟨utility, arguments⟩
    | .file content true =>
      match interpreter? content, limit with
      | none, _ => throw .execFormat
      | some _, 0 => throw .linkLoop
      | some (name, extra), limit + 1 =>
        atPath tree directory limit name (name :: extra ++ path :: arguments.tail)
    | _ => throw .permissionDenied

/-- The search path of a process that has none. -/
def usualSearch : String := "/bin:/usr/bin"

/-- The value of a variable in a list of variables. -/
def valueOf? (bindings : List String) (name : String) : Option String :=
  bindings.findSome? fun entry =>
    match entry.toList.span (· ≠ '=') with
    | (key, _ :: value) => if String.ofList key = name then some (String.ofList value) else none
    | _ => none

/-- The file of a name in a directory of a search path; an empty directory is
the working directory. -/
def join (directory name : String) : String :=
  if directory = "" then name else directory ++ "/" ++ name

/-- The program of a name in the first directory that has it. A directory where
it may not be started is passed over, but remembered. -/
def search (tree : FileTree) (directory : Location) (name : String) (arguments : List String) :
    Fault → List String → Except Fault Program
  | worst, [] => .error worst
  | worst, place :: places =>
    let path := join place name
    match atPath tree directory interpreterLimit path arguments with
    | .ok program => .ok program
    | .error failure =>
      if failure = .execFormat then
        .ok ⟨.shell, "/bin/sh" :: path :: arguments.tail⟩
      else if failure = .permissionDenied then
        search tree directory name arguments .permissionDenied places
      else if failure = .noSuchFile ∨ failure = .notADirectory then
        search tree directory name arguments worst places
      else .error failure

/-- The program that a name or a path denotes. A path is followed; a name is
searched for. -/
def find (tree : FileTree) (directory : Location) (name : String) (arguments : List String)
    (searchPath : String) : Except Fault Program :=
  if name.toList.contains '/' then
    atPath tree directory interpreterLimit name (name :: arguments)
  else if name = "" then .error .noSuchFile
  else
    let places := (searchPath.toList.splitOnP (· = ':')).map String.ofList
    search tree directory name (name :: arguments) .noSuchFile places

end Program

end LineScript.Machine
