import LineScript.CommandLine
import LineScript.FileTree

/-!
# Options from files

The options of a configuration file that a path leads to, and the options that
a command line asks for.
-/

namespace LineScript

/-- Reads the options of a configuration file, unchecked. -/
def Options.load (tree : FileTree) (directory : Location) (path : String) :
    Except RunError Options :=
  match tree.read directory path with
  | .error failure => .error (.io failure)
  | .ok content => Options.ofFile content

/-- Reads the options of a configuration file by itself, checked. -/
def Options.loadChecked (tree : FileTree) (directory : Location) (path : String) :
    Except RunError Options := do
  let options ← Options.load tree directory path
  options.checked

/-- The options that a command line asks for. -/
def CommandLine.options (line : CommandLine) (tree : FileTree) (directory : Location) :
    Except RunError Options :=
  Options.resolve (line.config.map (Options.load tree directory)) line.overrides

end LineScript
