import LineScript.Host
import LineScript.Text.Line

/-!
# A child's output

Between a child that prints and a supervisor that polls stand a reader and a
queue. The reader fetches bytes, cuts them into lines, and puts each line into
the queue; while the queue is full it waits with the line in its hand, so that
the child has to wait as well. The supervisor takes lines from the other end.
The queue is at its end once the reader has ended and the last line was taken.
-/

namespace LineScript

/-- What a reader of output is doing. -/
inductive OutputReader where
  /-- It looks for the end of a line. -/
  | reading
  /-- It waits for room in the queue for a line. -/
  | holding (line : String)
  /-- It has come to the end, or cannot read on. -/
  | ended
  deriving DecidableEq, Repr

/-- What fetching output brings. -/
inductive Fetch where
  /-- Some bytes. -/
  | bytes (bytes : Bytes)
  /-- The end. -/
  | finished
  /-- A failure. -/
  | failed
  deriving DecidableEq, Repr

/-- Output on its way from a child to its supervisor. -/
structure ChildOutput where
  /-- Bytes that were fetched and are not yet cut into lines. -/
  unread : Bytes := []
  /-- What the reader is doing. -/
  reader : OutputReader := .reading
  /-- The lines in the queue. -/
  queue : List String := []
  deriving DecidableEq, Repr

namespace ChildOutput

/-- How many lines the queue holds. -/
def queueLimit : Nat := 64

/-- A line of output as text. -/
def textOf (line : Bytes) : String := Utf8.decodeStringLossy (dropTerminator line)

/-- Whether the reader cannot go on without fetching. -/
def needsFetch (o : ChildOutput) : Bool :=
  o.reader = .reading && (splitAfterNewline? o.unread).isNone

/-- Takes in what fetching has brought. An unfinished line before the end is a
line; before a failure it is lost. -/
def feed (o : ChildOutput) (fetch : Fetch) : ChildOutput :=
  match o.reader, fetch with
  | .reading, .bytes bytes => { o with unread := o.unread ++ bytes }
  | .reading, .finished =>
    if o.unread = [] then { o with reader := .ended }
    else { o with unread := [], reader := .holding (textOf o.unread) }
  | .reading, .failed => { o with unread := [], reader := .ended }
  | _, _ => o

/-- Lets the reader take the next line out of what was fetched. -/
def cut (o : ChildOutput) : ChildOutput :=
  match o.reader, splitAfterNewline? o.unread with
  | .reading, some (line, unread) => { o with unread, reader := .holding (textOf line) }
  | _, _ => o

/-- Lets the reader put its line into the queue, if there is room. -/
def push (o : ChildOutput) : ChildOutput :=
  match o.reader with
  | .holding line =>
    if o.queue.length < queueLimit then { o with queue := o.queue ++ [line], reader := .reading }
    else o
  | _ => o

/-- Takes the next line from the queue, or finds out that it is at its end;
`none` while neither can be told. -/
def receive (o : ChildOutput) : Option (ChildOutput × PollOutcome) :=
  match o.queue, o.reader with
  | line :: queue, _ => some ({ o with queue }, .line line)
  | [], .ended => some (o, .endOfStream)
  | [], _ => none

end ChildOutput

end LineScript
