import LineScript.FileTree
import LineScript.Script

/-!
# Script files

A script in a file. Its `$SD` is the directory in which the file really stands,
with all links followed. A directory can be opened as well, but not read.
-/

namespace LineScript.Script

/-- The directory of the file to which a path leads. -/
def directoryOf (tree : FileTree) (directory : Location) (path : String) :
    Except Fault String := do
  return FileTree.render (← tree.locate directory path).dropLast

/-- The bytes of what stands somewhere, and the failure of reading them. -/
def sourceOf (entry : Entry) : Source :=
  match FileTree.content entry with
  | .ok content => .ofBytes content
  | .error failure => ⟨[], some failure⟩

/-- Opens the script to which a path leads, and reads it. -/
def load (tree : FileTree) (directory : Location) (path : String) : Except Fault Script := do
  let (location, entry) ← tree.find directory path
  return read (FileTree.render location.dropLast) (sourceOf entry)

end LineScript.Script
