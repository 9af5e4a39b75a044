import LineScript.Text.Blank
import LineScript.Text.Line

/-!
# Scripts

A script is read from a byte source line by line. Every line must be UTF-8; the
blanks around it are dropped and each `$SD` in it is replaced by the directory
of the script. Reading stops at the first failure, and the lines before it
count. The replacement is not scanned again, so a directory whose name holds
`$SD` is safe.
-/

namespace LineScript

/-- One line of a script, ready to be classified. -/
structure Line where
  /-- Its number, from 1. -/
  number : Nat
  /-- Its text, trimmed and with the directory filled in. -/
  text : String
  deriving DecidableEq, Repr

/-- A script as it was read. -/
structure Script where
  /-- What `$SD` stands for. -/
  baseDir : String
  /-- The lines that could be read. -/
  lines : List Line
  /-- What ended the reading before the end of the script. -/
  failure : Option Fault := none

namespace Script

/-- The placeholder for the script's directory. -/
def placeholder : String := "$SD"

/-- Replaces each placeholder, from left to right, by `directory`. -/
def substitute (directory : List Char) : List Char → List Char
  | '$' :: 'S' :: 'D' :: rest => directory ++ substitute directory rest
  | c :: rest => c :: substitute directory rest
  | [] => []

/-- Makes a raw line ready: trims it and fills in the directory. -/
def prepareLine (raw baseDir : String) : String :=
  String.ofList (substitute baseDir.toList (Text.trim raw.toList))

/-- Makes the longest run of UTF-8 lines ready, numbered from `number`, and
gives the failure at the line after it, or else `failure`. The lines come without
their ends, so a character that the end of its line cuts off is incomplete. -/
def prepareLines (baseDir : String) (failure : Option Fault) (number : Nat) :
    List Bytes → List Line × Option Fault
  | [] => ([], failure)
  | raw :: rest =>
    match Utf8.decodeString raw with
    | .error malformed => ([], some ⟨.invalidData, malformed.message⟩)
    | .ok text =>
      let (lines, failure) := prepareLines baseDir failure (number + 1) rest
      (⟨number, prepareLine text baseDir⟩ :: lines, failure)

/-- The size of the buffer through which a script is read. -/
def bufferSize : Nat := 8192

/-- Reads a script. -/
def read (baseDir : String) (source : Source) : Script :=
  let (raws, failure) := (Reader.ofSource bufferSize source).lines
  let (lines, failure) := prepareLines baseDir failure 1 raws
  ⟨baseDir, lines, failure⟩

/-- Reads a script from text. -/
def ofText (baseDir text : String) : Script := read baseDir (.ofBytes (Utf8.ofString text))

/-- The inserted directory is not scanned for placeholders. -/
example : prepareLine " $SD$SD " "a$SD" = "a$SDa$SD" := by decide +kernel

/-- A character that a line end cuts off is incomplete, not invalid. -/
example : (read "/" (.ofBytes [0xE4, 0xBD, 0x0A, 0x61])).failure =
    some ⟨.invalidData, "incomplete utf-8 byte sequence from index 0"⟩ := by
  decide +kernel

end Script

end LineScript
