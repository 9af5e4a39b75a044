import LineScript.Machine.Program
import LineScript.Machine.Task

/-!
# Machines

The state of a machine: its files and pipes, its clock, and its processes. A
process that has ended keeps no descriptors, and is remembered until somebody
asks how it ended.
-/

namespace LineScript

namespace Machine

/-- A pipe. -/
structure Pipe where
  /-- What was written and not yet read, in pieces. -/
  pieces : List Bytes := []
  /-- The number of bytes in the pieces. -/
  size : Nat := 0

/-- The number of bytes that a pipe holds. -/
def pipeCapacity : Nat := 65536

/-- A write of at most so many bytes is never divided. -/
def wholeWrite : Nat := 4096

/-- At most so many bytes of pieces, and the pieces that are left. -/
def takeBytes : Nat → List Bytes → Bytes × List Bytes
  | _, [] => ([], [])
  | limit, piece :: rest =>
    if limit < piece.length then (piece.take limit, piece.drop limit :: rest)
    else
      let (taken, left) := takeBytes (limit - piece.length) rest
      (piece ++ taken, left)

namespace Pipe

/-- Takes at most so many bytes out of a pipe. -/
def read (pipe : Pipe) (limit : Nat) : Bytes × Pipe :=
  let (taken, pieces) := takeBytes limit pipe.pieces
  (taken, ⟨pieces, pipe.size - taken.length⟩)

/-- Puts bytes into a pipe. -/
def put (pipe : Pipe) (bytes : Bytes) : Pipe :=
  if bytes.isEmpty then pipe else ⟨pipe.pieces ++ [bytes], pipe.size + bytes.length⟩

/-- How many of so many bytes can be written now. -/
def room (pipe : Pipe) (wanted : Nat) : Nat :=
  let free := pipeCapacity - pipe.size
  if wanted ≤ free then wanted else if wanted ≤ wholeWrite then 0 else free

end Pipe

/-- An open file. -/
structure OpenFile where
  /-- The file. -/
  location : Location
  /-- Where the next reading or writing begins. -/
  offset : Nat
  /-- How it was opened. -/
  opening : Opening

/-- A process. -/
structure Process where
  /-- Its number. -/
  number : Nat
  /-- What it is running. -/
  task : Task
  /-- Its descriptors. -/
  table : Table
  /-- Where descriptors led that it has put aside, the last first. They are
  still open. -/
  kept : List Kept := []
  /-- The signals that it ignores. -/
  ignored : List Signal
  /-- Its working directory. -/
  directory : Location
  /-- How it ended, once it has. -/
  ending : Option Ending

end Machine

/-- A machine. -/
structure Machine where
  /-- Its files. -/
  files : FileTree
  /-- The time in nanoseconds. -/
  clock : Nat := 0
  /-- Its pipes, by their numbers. -/
  pipes : List Machine.Pipe := []
  /-- The files that were opened, by their numbers. -/
  opened : List Machine.OpenFile := []
  /-- The processes. -/
  processes : List Machine.Process := []
  /-- The number of the next process. -/
  next : Nat := 1000
  /-- The ends of pipes that are held from outside. -/
  held : List Machine.Channel := []

namespace Machine

/-- The process of a number. -/
def process? (m : Machine) (number : Nat) : Option Process :=
  m.processes.find? fun p => p.number = number

/-- The machine with a process in a new state. -/
def update (m : Machine) (p : Process) : Machine :=
  { m with processes := m.processes.map fun old => if old.number = p.number then p else old }

/-- The machine without a process. -/
def forget (m : Machine) (number : Nat) : Machine :=
  { m with processes := m.processes.filter fun p => p.number ≠ number }

/-- The machine after the end of a process. -/
def finish (m : Machine) (p : Process) (ending : Ending) : Machine :=
  m.update { p with ending := some ending, table := [], kept := [] }

/-- Whether a process has a channel open. -/
def Process.has (p : Process) (channel : Channel) : Bool :=
  p.table.any (fun entry => entry.2 = channel) ||
    p.kept.any fun kept => kept.any fun entry => entry.2 = some channel

/-- Whether a channel is still open anywhere. -/
def isOpen (m : Machine) (channel : Channel) : Bool :=
  m.held.contains channel || m.processes.any fun p => p.has channel

/-- A new pipe, as its number. -/
def newPipe (m : Machine) : Machine × Nat :=
  ({ m with pipes := m.pipes ++ [{}] }, m.pipes.length)

/-- Puts an entry where the machine keeps its files. -/
def putFile (m : Machine) (location : Location) (entry : Entry) : Machine :=
  { m with files := m.files.put location entry }

/-- The content of an open file as it is now. -/
def contentOf (m : Machine) (file : OpenFile) : Except Fault Bytes :=
  match m.files.entry? file.location with
  | some entry => FileTree.content entry
  | none => .ok []

/-- What reading from a channel gives; `none` if it has to wait. -/
def read (m : Machine) (channel : Channel) (limit : Nat) :
    Option (Machine × Except Fault Bytes) :=
  match channel with
  | .null => some (m, .ok [])
  | .writer _ => some (m, .error .badDescriptor)
  | .reader number =>
    match m.pipes[number]? with
    | none => some (m, .ok [])
    | some pipe =>
      if pipe.size = 0 then
        if m.isOpen (.writer number) then none else some (m, .ok [])
      else
        let (bytes, pipe) := pipe.read limit
        some ({ m with pipes := m.pipes.set number pipe }, .ok bytes)
  | .file handle =>
    match m.opened[handle]? with
    | none => some (m, .error .badDescriptor)
    | some file =>
      if file.opening ≠ .reading then some (m, .error .badDescriptor)
      else
        match m.contentOf file with
        | .error failure => some (m, .error failure)
        | .ok content =>
          let bytes := (content.drop file.offset).take limit
          let opened := m.opened.set handle { file with offset := file.offset + bytes.length }
          some ({ m with opened }, .ok bytes)

/-- What writing to a channel does. -/
inductive Written where
  /-- It has to wait. -/
  | blocked
  /-- So many bytes were written. -/
  | done (m : Machine) (count : Nat)
  /-- It fails. -/
  | failed (failure : Fault)
  /-- Nobody reads what is written. -/
  | unread

/-- Writes bytes to a channel. -/
def write (m : Machine) (channel : Channel) (bytes : Bytes) : Written :=
  match channel with
  | .null => .done m bytes.length
  | .reader _ => .failed .badDescriptor
  | .writer number =>
    if !m.isOpen (.reader number) then .unread
    else
      match m.pipes[number]? with
      | none => .unread
      | some pipe =>
        let room := pipe.room bytes.length
        if room = 0 ∧ !bytes.isEmpty then .blocked
        else .done { m with pipes := m.pipes.set number (pipe.put (bytes.take room)) } room
  | .file handle =>
    match m.opened[handle]? with
    | none => .failed .badDescriptor
    | some file =>
      if file.opening = .reading then .failed .badDescriptor
      else
        match m.files.entry? file.location with
        | some (.file content executable) =>
          let start := if file.opening = .appending then content.length else file.offset
          let padded := content ++ List.replicate (start - content.length) 0
          let content := padded.take start ++ bytes ++ padded.drop (start + bytes.length)
          let file := { file with offset := start + bytes.length }
          let m := { m with opened := m.opened.set handle file }
          .done (m.putFile file.location (.file content executable)) bytes.length
        | _ => .done m bytes.length

/-- The location at which a file is to be made: a path whose last component is
missing. -/
def freshLocation (m : Machine) (directory : Location) (path : String) :
    Except Fault Location :=
  let parts := path.toList.splitOnP (· = '/')
  let name := String.ofList (parts.getLast?.getD [])
  let above := String.ofList (['/'].intercalate parts.dropLast)
  if name = "" then .error .noSuchFile
  else do
    let place ← match parts with
      | [_] => pure directory
      | _ => m.files.locate directory (if above = "" then "/" else above)
    if m.files.entry? place = some .directory then return place ++ [name]
    throw .notADirectory

/-- Opens the file to which a path leads; one that is to be written is made if
it is missing. -/
def openFile (m : Machine) (directory : Location) (path : String) (opening : Opening) :
    Except Fault (Machine × Channel) :=
  let path := unspell path
  let opened (m : Machine) (location : Location) : Machine × Channel :=
    ({ m with opened := m.opened ++ [⟨location, 0, opening⟩] }, .file m.opened.length)
  match m.files.find directory path, opening with
  | .ok (_, .null), _ => .ok (m, .null)
  | .ok (location, .file _ executable), .writing =>
    .ok (opened (m.putFile location (.file [] executable)) location)
  | .ok (_, .directory), .writing | .ok (_, .directory), .appending => .error .isADirectory
  | .ok (location, _), _ => .ok (opened m location)
  | .error failure, .reading => .error failure
  | .error failure, _ =>
    if failure = .noSuchFile then do
      let location ← m.freshLocation directory path
      return opened (m.putFile location (.file [] false)) location
    else .error failure

/-- Makes one change of descriptors. -/
def rewire (m : Machine) (directory : Location) (table : Table) :
    Rewire → Except Fault (Machine × Table)
  | .close descriptor => .ok (m, table.close descriptor)
  | .copy descriptor source =>
    match table.lookup source with
    | some channel => .ok (m, table.set descriptor channel)
    | none => .error .badDescriptor
  | .supply descriptor bytes =>
    .ok ({ m with pipes := m.pipes ++ [Pipe.put {} bytes] },
      table.set descriptor (.reader m.pipes.length))
  | .openFile descriptor path opening => do
    let (m, channel) ← m.openFile directory path opening
    return (m, table.set descriptor channel)

/-- Makes changes of descriptors one after the other, up to the first that
fails. -/
def rewireAll (m : Machine) (directory : Location) (table : Table) :
    List Rewire → Machine × Table × Option Fault
  | [] => (m, table, none)
  | change :: changes =>
    match m.rewire directory table change with
    | .error failure => (m, table, some failure)
    | .ok (m, table) => m.rewireAll directory table changes

end Machine

end LineScript
