/-!
# Input and output failures

A failure of the surrounding system is a kind and a wording. Failures that the
system itself reports carry the text and number of its error; the others are
made by the part that found the trouble.
-/

namespace LineScript

/-- The kinds of input and output failure. -/
inductive FaultKind where
  /-- No such file or program. -/
  | notFound
  /-- Access is not allowed. -/
  | permissionDenied
  /-- Nobody reads what is written. -/
  | brokenPipe
  /-- Data is not in the form it must have. -/
  | invalidData
  /-- An argument cannot be passed on. -/
  | invalidInput
  /-- A file was needed where a directory stands. -/
  | isADirectory
  /-- A directory was needed where something else stands. -/
  | notADirectory
  /-- A file name is not allowed. -/
  | invalidFileName
  /-- Symbolic links lead in a circle. -/
  | linkLoop
  /-- Time ran out. -/
  | timedOut
  /-- A system error without a kind of its own. -/
  | uncategorized
  /-- Any failure that is no system error. -/
  | other
  deriving DecidableEq, Repr

/-- A failure of input or output. -/
structure Fault where
  /-- What sort of failure it is. -/
  kind : FaultKind
  /-- Its wording. -/
  message : String
  deriving DecidableEq, Repr

namespace Fault

/-- A failure with the system's text and error number. -/
def system (kind : FaultKind) (text : String) (number : Nat) : Fault :=
  ⟨kind, s!"{text} (os error {number})"⟩

/-- There is no such file or directory. -/
def noSuchFile : Fault := system .notFound "No such file or directory" 2

/-- A file is no program that the system can start. -/
def execFormat : Fault := system .uncategorized "Exec format error" 8

/-- A descriptor leads nowhere, or not where it is needed. -/
def badDescriptor : Fault := system .uncategorized "Bad file descriptor" 9

/-- The permissions of a file do not allow its use. -/
def permissionDenied : Fault := system .permissionDenied "Permission denied" 13

/-- A path continues below something that is no directory. -/
def notADirectory : Fault := system .notADirectory "Not a directory" 20

/-- A directory cannot be read like a file. -/
def isADirectory : Fault := system .isADirectory "Is a directory" 21

/-- A pipe has no reader. -/
def brokenPipe : Fault := system .brokenPipe "Broken pipe" 32

/-- A component of a path is longer than the system allows. -/
def nameTooLong : Fault := system .invalidFileName "File name too long" 36

/-- A path runs through too many symbolic links. -/
def linkLoop : Fault := system .linkLoop "Too many levels of symbolic links" 40

/-- A program name, an argument or a variable holds a NUL. -/
def nulInArgument : Fault := ⟨.invalidInput, "nul byte found in provided data"⟩

/-- A file name holds a NUL. -/
def nulInFileName : Fault := ⟨.invalidInput, "file name contained an unexpected NUL byte"⟩

/-- A whole file was to be text and is not UTF-8. -/
def notText : Fault := ⟨.invalidData, "stream did not contain valid UTF-8"⟩

end Fault

end LineScript
