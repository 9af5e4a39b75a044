import LineScript.Text.Utf8
import LineScript.Fault

/-!
# Lines of a byte source

A source delivers its bytes in pieces of any size, and may fail in place of
ending. A reader fetches from it through a buffer and takes one line at a time:
all bytes up to and including a newline, or the unfinished line before the end.
An unfinished line before a failure is lost. Where the pieces were cut leaves
no trace in the lines.
-/

namespace LineScript

/-- Where bytes come from. -/
structure Source where
  /-- The pieces in which the bytes arrive. -/
  chunks : List Bytes
  /-- What happens once, after all pieces, in place of the end. -/
  failure : Option Fault := none

/-- A source that delivers everything at once. -/
def Source.ofBytes (bytes : Bytes) : Source := ⟨[bytes], none⟩

/-- The byte that ends a line. -/
def newline : UInt8 := 0x0A

/-- The byte that may stand before the end of a line and belongs to it. -/
def carriageReturn : UInt8 := 0x0D

/-- Cuts bytes into pieces of `size` bytes and a last piece of at most that
many; `fuel` bounds the number of pieces. -/
def cutEvery (size : Nat) : Nat → Bytes → List Bytes
  | 0, _ => []
  | _ + 1, [] => []
  | fuel + 1, bytes => bytes.take size :: cutEvery size fuel (bytes.drop size)

/-- The bytes up to and including the first newline, and those after it. -/
def splitAfterNewline? : Bytes → Option (Bytes × Bytes)
  | [] => none
  | b :: rest =>
    if b = newline then some ([b], rest)
    else (splitAfterNewline? rest).map fun pieces => (b :: pieces.1, pieces.2)

/-- A line without its terminator, which is a newline and at most one carriage
return before it. A line that does not end in a newline is kept as it is. -/
def dropTerminator (line : Bytes) : Bytes :=
  match line.reverse with
  | b :: rest =>
    if b = newline then
      match rest with
      | c :: body => if c = carriageReturn then body.reverse else rest.reverse
      | [] => []
    else line
  | [] => []

/-- A buffered reader. -/
structure Reader where
  /-- Bytes fetched and not yet taken. -/
  buffer : Bytes
  /-- The pieces that the coming fetches will bring. -/
  fetches : List Bytes
  /-- What comes after the last fetch in place of the end. -/
  failure : Option Fault

namespace Reader

/-- A reader whose buffer holds `capacity` bytes, or one if that is zero. -/
def ofSource (capacity : Nat) (source : Source) : Reader :=
  ⟨[], source.chunks.flatMap fun chunk => cutEvery (max capacity 1) chunk.length chunk,
    source.failure⟩

/-- The bytes still to be taken. -/
def remaining (r : Reader) : Bytes := r.buffer ++ r.fetches.flatten

/-- Takes bytes up to and including a newline, or all there are; gives what is
left of the buffer and of the fetches too. -/
def takeLine (buffer : Bytes) (fetches : List Bytes) : Bytes × Bytes × List Bytes :=
  match splitAfterNewline? buffer with
  | some (head, tail) => (head, tail, fetches)
  | none =>
    match fetches with
    | [] => (buffer, [], [])
    | next :: later =>
      let (line, rest, fetches) := takeLine next later
      (buffer ++ line, rest, fetches)

/-- Reads the next line with its terminator: `none` at the end, or the failure
in place of the end. -/
def readLine (r : Reader) : Except Fault (Option Bytes) × Reader :=
  let (line, buffer, fetches) := takeLine r.buffer r.fetches
  let complete := line.getLast? == some newline
  match complete, r.failure with
  | false, some fault => (.error fault, ⟨buffer, fetches, none⟩)
  | _, _ => (.ok (if line = [] then none else some line), ⟨buffer, fetches, r.failure⟩)

/-- Reads lines without their terminators, at most `fuel` of them, and the
failure that ended the reading. -/
def readLines : Nat → Reader → List Bytes × Option Fault
  | 0, _ => ([], none)
  | fuel + 1, r =>
    match r.readLine with
    | (.error fault, _) => ([], some fault)
    | (.ok none, _) => ([], none)
    | (.ok (some line), next) =>
      let (lines, failure) := readLines fuel next
      (dropTerminator line :: lines, failure)

/-- All lines of a reader without their terminators, and the failure that ended
the reading. Every line takes a byte at least. -/
def lines (r : Reader) : List Bytes × Option Fault := readLines (r.remaining.length + 1) r

/-- Reads a line as text into a line buffer, whose old content is discarded:
without terminator, and decoded without failing. -/
def readText (r : Reader) (_lineBuffer : Bytes) :
    Except Fault (Option String) × Reader × Bytes :=
  match r.readLine with
  | (.error fault, next) => (.error fault, next, [])
  | (.ok none, next) => (.ok none, next, [])
  | (.ok (some line), next) =>
    let line := dropTerminator line
    (.ok (some (Utf8.decodeStringLossy line)), next, line)

/-- Reads text lines until the end or a failure, at most `fuel` of them, always
into the same line buffer. -/
def readTexts : Nat → Reader → Bytes → List String
  | 0, _, _ => []
  | fuel + 1, r, lineBuffer =>
    match r.readText lineBuffer with
    | (.ok (some line), next, lineBuffer) => line :: readTexts fuel next lineBuffer
    | _ => []

/-- All text lines of a reader. -/
def texts (r : Reader) (lineBuffer : Bytes) : List String :=
  readTexts (r.remaining.length + 1) r lineBuffer

end Reader

/-- A terminator that is cut across two pieces is still one terminator. -/
example : (Reader.ofSource 1 ⟨[[0x61, 0x0D], [0x0A]], none⟩).lines = ([[0x61]], none) := by
  decide +kernel

end LineScript
