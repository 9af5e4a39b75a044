import LineScript.FileTree

/-!
# The files of every machine

The utilities, the null device, and the directories around them.
-/

namespace LineScript.FileTree

/-- The directory of the utilities. -/
def programDirectory : Location := ["usr", "bin"]

/-- The files under the names of a utility; the test has two. -/
def utilityFiles (utility : Utility) : List (Location × Entry) :=
  let names := utility.name :: if utility = .test then ["["] else []
  names.map fun name => (programDirectory ++ [name], .utility utility)

/-- The files of every machine. -/
def system : FileTree where
  entries :=
    [(["dev"], .directory), (["dev", "null"], .null), (["etc"], .directory),
      (["home"], .directory), (["tmp"], .directory), (["usr"], .directory),
      (programDirectory, .directory), (["bin"], .link "usr/bin")] ++
    Utility.all.flatMap utilityFiles

end LineScript.FileTree
