import LineScript.Machine.Request
import LineScript.Machine.Spelling

/-!
# Copying to the output

The utilities that copy: all of some files, with marks on the lines if that is
asked for, or the first lines of the input. A file that cannot be read is
reported, and the others are copied all the same.
-/

namespace LineScript.Utility

open Machine

/-- What is done to the lines of a copy. -/
structure Marks where
  /-- Lines are numbered. -/
  numbers : Bool := false
  /-- Empty lines are left out of the numbering. -/
  sparse : Bool := false
  /-- Line ends are made visible. -/
  ends : Bool := false
  /-- Tabs are made visible. -/
  tabs : Bool := false
  /-- Other bytes that do not print are made visible. -/
  controls : Bool := false
  /-- Of empty lines in a row only the first is kept. -/
  squeezed : Bool := false
  deriving DecidableEq, Repr

/-- Where a copy stands. -/
structure Position where
  /-- The number of lines so far. -/
  line : Nat := 0
  /-- Whether a line begins here. -/
  atStart : Bool := true
  /-- Whether the line before was empty. -/
  afterEmpty : Bool := false

namespace Marks

/-- A line's number before the line. -/
def label (n : Nat) : Bytes :=
  let digits := (Nat.toDigits 10 n)
  Utf8.ofString (String.ofList (List.replicate (6 - digits.length) ' ' ++ digits ++ ['\t']))

/-- A byte below the top half, made visible by a caret. -/
def caret (b : UInt8) : Bytes :=
  if b < 0x20 then [0x5E, b + 0x40] else if b = 0x7F then [0x5E, 0x3F] else [b]

/-- A byte that ends no line, as it is shown. -/
def shown (marks : Marks) (b : UInt8) : Bytes :=
  if b = 0x09 then if marks.tabs then caret b else [b]
  else if !marks.controls then [b]
  else if b < 0x80 then caret b
  else 0x4D :: 0x2D :: caret (b - 0x80)

/-- What a byte is copied to. -/
def byte (marks : Marks) (at_ : Position) (b : UInt8) : Position × Bytes :=
  let ends := b = 0x0A
  let empty := ends && at_.atStart
  if empty && marks.squeezed && at_.afterEmpty then (at_, [])
  else
    let numbered := at_.atStart && marks.numbers && !(marks.sparse && ends)
    let line := if numbered then at_.line + 1 else at_.line
    let front := if numbered then label line else []
    let body := if ends then if marks.ends then [0x24, b] else [b] else marks.shown b
    (⟨line, ends, empty⟩, front ++ body)

/-- What bytes are copied to. -/
def bytes (marks : Marks) (at_ : Position) (input : Bytes) : Position × Bytes :=
  if marks = {} then (at_, input)
  else
    let (at_, output) := input.foldl (fun (at_, output) b =>
      let (at_, copied) := byte marks at_ b
      (at_, copied.reverse ++ output)) (at_, ([] : Bytes))
    (at_, output.reverse)

end Marks

/-- A copy under way. -/
structure Copying where
  /-- The files to come. -/
  files : List String
  /-- The descriptor from which is read. -/
  source : Option Nat := none
  /-- What is to be written, and where. -/
  output : List (Nat × Bytes) := []
  /-- What is done to the lines. -/
  marks : Marks := {}
  /-- Where the copy stands. -/
  position : Position := {}
  /-- The number of lines that are still wanted, if not all are. -/
  wanted : Option Nat := none
  /-- The code of the end. -/
  code : Nat := 0

namespace Copying

/-- The bytes up to the end of the last wanted line, and how many lines are
wanted after them. -/
def firstLines : Nat → Bytes → Bytes × Nat
  | 0, _ => ([], 0)
  | n, [] => ([], n)
  | n + 1, b :: rest =>
    let (taken, left) := firstLines (if b = 0x0A then n else n + 1) rest
    (b :: taken, left)

/-- Takes in bytes that were read. -/
def take (c : Copying) (input : Bytes) : Copying :=
  let (input, wanted) := match c.wanted with
    | none => (input, none)
    | some n =>
      let (taken, left) := firstLines n input
      (taken, some left)
  let (position, copied) := c.marks.bytes c.position input
  { c with position, wanted, output := c.output ++ [(1, copied)] }

/-- Reports a file that cannot be read. -/
def report (c : Copying) (file : String) (failure : Fault) : Copying :=
  { c with
    output := c.output ++ [(2, bytesOf (file ++ ": " ++ failure.message ++ "\n"))]
    code := 1 }

/-- The descriptor of an opened file. -/
def fileDescriptor : Nat := 3

/-- What a copy asks for. -/
def step (c : Copying) : Request Copying :=
  match c.output with
  | (descriptor, bytes) :: output =>
    if bytes.isEmpty then .proceed { c with output }
    else .write descriptor bytes fun answer =>
      match answer with
      | .ok n => { c with output := (descriptor, bytes.drop n) :: output }
      | .error _ => { c with output, code := 1, files := [], source := none }
  | [] =>
    if c.wanted = some 0 then .finish c.code
    else
      match c.source, c.files with
      | none, [] => .finish c.code
      | none, "-" :: files => .proceed { c with files, source := some 0 }
      | none, file :: files => .rewire [.openFile fileDescriptor file .reading] fun failure =>
          match failure with
          | none => { c with files, source := some fileDescriptor }
          | some fault => { c with files }.report file fault
      | some descriptor, _ => .read descriptor 65536 fun answer =>
          match answer with
          | .ok [] => { c with source := none }
          | .ok input => c.take input
          | .error fault => { c with source := none }.report "read" fault

/-- A copy of files, or of the input if there are none. -/
def ofFiles (marks : Marks) (files : List String) : Copying :=
  { files := if files.isEmpty then ["-"] else files, marks }

/-- Adds the mark of an option's letter. -/
def mark (marks : Marks) : Char → Option Marks
  | 'n' => some { marks with numbers := true }
  | 'b' => some { marks with numbers := true, sparse := true }
  | 'E' => some { marks with ends := true }
  | 'T' => some { marks with tabs := true }
  | 'v' => some { marks with controls := true }
  | 's' => some { marks with squeezed := true }
  | 'e' => some { marks with controls := true, ends := true }
  | 't' => some { marks with controls := true, tabs := true }
  | 'A' => some { marks with controls := true, ends := true, tabs := true }
  | 'u' => some marks
  | _ => none

/-- The long names of options, with their letters. -/
def longNames : List (String × Char) :=
  [("show-all", 'A'), ("number-nonblank", 'b'), ("show-ends", 'E'), ("number", 'n'),
    ("squeeze-blank", 's'), ("show-tabs", 'T'), ("show-nonprinting", 'v')]

/-- The letter of a long option, whose name may be cut short as long as it is
clear. -/
def letterOf? (name : List Char) : Option Char :=
  match longNames.lookup (String.ofList name) with
  | some letter => some letter
  | none =>
    match longNames.filter fun entry => name.isPrefixOf entry.1.toList with
    | [(_, letter)] => some letter
    | _ => none

/-- The marks that options ask for, and the files after them. -/
def options (marks : Marks) : List String → Option (Marks × List String)
  | [] => some (marks, [])
  | "--" :: files => some (marks, files)
  | argument :: rest =>
    match argument.toList with
    | '-' :: '-' :: name => do
      let marks ← mark marks (← letterOf? name)
      options marks rest
    | '-' :: c :: flags => do
      let marks ← (c :: flags).foldlM mark marks
      options marks rest
    | _ => (options marks rest).map fun (marks, files) => (marks, argument :: files)

end Copying

end LineScript.Utility
