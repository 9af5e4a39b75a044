import LineScript.Fault
import LineScript.Text.Utf8
import LineScript.Utility

/-!
# Files

Directories, files, symbolic links and the null device, and how a path leads to
one of them. A path is followed component by component from the root or from a
working directory; every component but the last must be a directory, links are
followed wherever they stand, and a link that leads through too many others
leads nowhere.
-/

namespace LineScript

/-- The names that lead from the root to a place. -/
abbrev Location := List String

/-- What stands at a location. -/
inductive Entry where
  /-- A directory. -/
  | directory
  /-- A file; an executable one may be started. -/
  | file (content : Bytes) (executable : Bool)
  /-- A symbolic link. -/
  | link (target : String)
  /-- The null device: it is empty and takes everything. -/
  | null
  /-- A program of the machine's own. -/
  | utility (utility : Utility)
  deriving DecidableEq, Repr

/-- A tree of files. The root is always a directory. -/
structure FileTree where
  /-- What stands at each location. -/
  entries : List (Location × Entry) := []

namespace FileTree

/-- The pieces of a path between its slashes. -/
def components (path : String) : List String :=
  (path.toList.splitOnP (· = '/')).map String.ofList

/-- Whether a path starts at the root. -/
def isAbsolute (path : String) : Bool := path.toList.head? = some '/'

/-- A location as a path. -/
def render (location : Location) : String := "/" ++ "/".intercalate location

/-- The location of a path without links, dots or doubled slashes in it. -/
def locationOf (path : String) : Location :=
  (components path).filter fun name => name ≠ "" ∧ name ≠ "."

/-- What stands at a location. -/
def entry? (tree : FileTree) : Location → Option Entry
  | [] => some .directory
  | location => tree.entries.lookup location

/-- Puts something at a location, without regard to the directories above. -/
def set (location : Location) (entry : Entry) :
    List (Location × Entry) → List (Location × Entry)
  | [] => [(location, entry)]
  | old :: rest =>
    if old.1 = location then (location, entry) :: rest else old :: set location entry rest

/-- Puts something at a location; the directories above are made if they are
missing. -/
def put (tree : FileTree) (location : Location) (entry : Entry) : FileTree :=
  let above := (List.range location.length).map location.take
  let missing := above.filter fun place => (tree.entry? place).isNone
  ⟨set location entry (missing.foldl (fun entries place => set place .directory entries)
    tree.entries)⟩

/-- The longest name of a file, in bytes. -/
def nameLimit : Nat := 255

/-- The length that a path must stay below, in bytes. -/
def pathLimit : Nat := 4096

/-- The number of links through which a path may lead. -/
def linkLimit : Nat := 40

/-- How following a path ends without following a link. -/
inductive Walk where
  /-- At a location. -/
  | arrived (location : Location)
  /-- At a link that stands in a directory, with components to go. -/
  | link (directory : Location) (target : String) (rest : List String)

/-- Follows components from a location to the end or to the first link. -/
def walk (tree : FileTree) (place : Location) : List String → Except Fault Walk
  | [] => .ok (.arrived place)
  | name :: rest =>
    if tree.entry? place ≠ some .directory then .error .notADirectory
    else if name = "" ∨ name = "." then tree.walk place rest
    else if name = ".." then tree.walk place.dropLast rest
    else if nameLimit < name.utf8ByteSize then .error .nameTooLong
    else
      let next := place ++ [name]
      match tree.entry? next with
      | none => .error .noSuchFile
      | some (.link target) => .ok (.link place target rest)
      | some _ => tree.walk next rest

/-- Follows components through at most so many links. -/
def follow (tree : FileTree) : Nat → Location → List String → Except Fault Location
  | links, place, names => do
    match ← tree.walk place names with
    | .arrived location => return location
    | .link directory target rest =>
      match links with
      | 0 => throw .linkLoop
      | links + 1 =>
        tree.follow links (if isAbsolute target then [] else directory)
          (components target ++ rest)

/-- The location to which a path leads from a working directory. -/
def locate (tree : FileTree) (directory : Location) (path : String) : Except Fault Location :=
  if '\x00' ∈ path.toList then .error .nulInFileName
  else if path = "" then .error .noSuchFile
  else if pathLimit ≤ path.utf8ByteSize then .error .nameTooLong
  else tree.follow linkLimit (if isAbsolute path then [] else directory) (components path)

/-- Where a path leads, and what stands there. -/
def find (tree : FileTree) (directory : Location) (path : String) :
    Except Fault (Location × Entry) := do
  let location ← tree.locate directory path
  match tree.entry? location with
  | none => throw .noSuchFile
  | some entry => return (location, entry)

/-- The content of what stands somewhere. A program's own content is kept
secret. -/
def content : Entry → Except Fault Bytes
  | .directory => .error .isADirectory
  | .file content _ => .ok content
  | _ => .ok []

/-- The content of the file to which a path leads. -/
def read (tree : FileTree) (directory : Location) (path : String) : Except Fault Bytes := do
  content (← tree.find directory path).2

/-- A link may lead out of its directory. -/
example :
    let tree : FileTree := ⟨[(["a"], .directory), (["a", "l"], .link "../f"), (["f"], .null)]⟩
    (tree.locate [] "/a/l").toOption = some ["f"] := by decide +kernel

end FileTree

end LineScript
