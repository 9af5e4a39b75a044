import LineScript.FileTree.System
import LineScript.Invocation

/-!
# The program

The outer layer: it takes the arguments, the input, the files that the
arguments name and one environment variable from the system, and hands on what
the call leaves behind.
-/

namespace LineScript.Main

/-- All that is left to read. -/
partial def readAll (stream : IO.FS.Stream) (taken : ByteArray) : IO ByteArray := do
  let more ← stream.read 65536
  if more.isEmpty then return taken
  readAll stream (taken ++ more)

/-- A tree that has the file to which a path leads, too, if there is one. -/
def fetch (directory : Location) (tree : FileTree) (path : String) : IO FileTree := do
  let place := if FileTree.isAbsolute path then [] else directory
  let asked := place ++ FileTree.locationOf path
  try
    let real ← IO.FS.realPath path
    let found := FileTree.locationOf real.toString
    let entry : Entry ←
      if ← real.isDir then pure .directory
      else pure (.file (← IO.FS.readBinFile real).toList false)
    let tree := tree.put found entry
    return if asked = found then tree else tree.put asked (.link real.toString)
  catch _ => return tree

/-- The whole input, if a command line asks for it. -/
def fetchInput (line : CommandLine) : IO Bytes := do
  if line.script.isSome then return []
  return (← readAll (← IO.getStdin) .empty).toList

/-- The call with these arguments, as the system lets it be made. -/
def invocation (arguments : List String) : IO Invocation := do
  let directory := FileTree.locationOf (← IO.currentDir).toString
  let start := FileTree.system.put directory .directory
  let call : Invocation :=
    { arguments, logSetting := ← IO.getEnv "TESTER_LOG", input := [], files := start, directory }
  match CommandLine.read arguments with
  | .error _ => return call
  | .ok line =>
    let files ← (line.config.toList ++ line.script.toList).foldlM (fetch directory) start
    return { call with files, input := ← fetchInput line }

end LineScript.Main

/-- Carries out the call of the program. -/
def main (arguments : List String) : IO UInt32 := do
  let done := (← LineScript.Main.invocation arguments).run
  for record in done.log do
    IO.eprint record.render
  let output ← IO.getStdout
  output.write ⟨done.output.toArray⟩
  output.flush
  if let some text := done.conclusion.farewell? then
    IO.eprint text
  return UInt32.ofNat done.conclusion.exitCode
