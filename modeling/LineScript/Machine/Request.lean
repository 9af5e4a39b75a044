import LineScript.Fault
import LineScript.FileTree
import LineScript.Machine.Signal

/-!
# What a process can ask for

A process is a program in some state that asks the machine for one thing after
the other: to read and write, to start and await other processes, to wait, to
end. With every request comes the state in which the program goes on once it
has the answer. The machine alone decides when that is.
-/

namespace LineScript.Machine

/-- What a descriptor leads to. -/
inductive Channel where
  /-- The end of a pipe from which is read. -/
  | reader (pipe : Nat)
  /-- The end of a pipe into which is written. -/
  | writer (pipe : Nat)
  /-- The null device. -/
  | null
  /-- An open file. -/
  | file (handle : Nat)
  deriving DecidableEq, Repr

/-- The descriptors of a process, each at most once. -/
abbrev Table := List (Nat × Channel)

/-- A table with a descriptor that leads somewhere else. -/
def Table.set (table : Table) (descriptor : Nat) (channel : Channel) : Table :=
  (descriptor, channel) :: table.filter fun entry => entry.1 ≠ descriptor

/-- A table without a descriptor. -/
def Table.close (table : Table) (descriptor : Nat) : Table :=
  table.filter fun entry => entry.1 ≠ descriptor

/-- The first descriptor from ten on that is free. -/
def Table.free (table : Table) : Nat :=
  ((List.range (table.length + 1)).map (· + 10)).find? (fun d => (table.lookup d).isNone)
    |>.getD (table.length + 10)

/-- Where some descriptors led when they were put aside; `none` for one that was
closed. -/
abbrev Kept := List (Nat × Option Channel)

/-- Where some descriptors of a table lead. -/
def Table.keep (table : Table) (descriptors : List Nat) : Kept :=
  descriptors.map fun d => (d, table.lookup d)

/-- A table whose descriptors lead where they led when they were put aside. -/
def Table.restore (table : Table) (kept : Kept) : Table :=
  kept.foldl (fun table (d, channel?) =>
    match channel? with
    | some channel => table.set d channel
    | none => table.close d) table

/-- How a file is opened. -/
inductive Opening where
  /-- For reading. -/
  | reading
  /-- For writing, after it was emptied. -/
  | writing
  /-- For writing at its end. -/
  | appending
  deriving DecidableEq, Repr

/-- A change of one descriptor. -/
inductive Rewire where
  /-- It leads to a file. -/
  | openFile (descriptor : Nat) (path : String) (opening : Opening)
  /-- It leads to some bytes that can be read. -/
  | supply (descriptor : Nat) (bytes : Bytes)
  /-- It leads where another one leads. -/
  | copy (descriptor source : Nat)
  /-- It is closed. -/
  | close (descriptor : Nat)
  deriving DecidableEq, Repr

/-- The descriptor that is changed. -/
def Rewire.descriptor : Rewire → Nat
  | .openFile d _ _ | .supply d _ | .copy d _ | .close d => d

/-- How a process ended. -/
inductive Ending where
  /-- By itself, with a code. -/
  | code (code : Nat)
  /-- By a signal. -/
  | signal (signal : Signal)
  deriving DecidableEq, Repr

/-- An ending as one number, from which success is told. -/
def Ending.status : Ending → Nat
  | .code n => n
  | .signal s => 128 + s.number

/-- What a process asks for, and how it goes on in one of the states `τ`. -/
inductive Request (τ : Type) where
  /-- Nothing. -/
  | proceed (next : τ)
  /-- To read at most so many bytes; none at all mean the end. -/
  | read (descriptor limit : Nat) (next : Except Fault Bytes → τ)
  /-- To write as many of some bytes as possible. -/
  | write (descriptor : Nat) (bytes : Bytes) (next : Except Fault Nat → τ)
  /-- To know the time, in nanoseconds. -/
  | clock (next : Nat → τ)
  /-- To wait for a point in time. -/
  | sleep (time : Nat) (next : τ)
  /-- A pipe, as two descriptors: where to read from it and where to write. -/
  | pipe (next : Nat → Nat → τ)
  /-- A copy of the process that goes on in another state. -/
  | fork (child : τ) (next : Nat → τ)
  /-- To know how another process ends. -/
  | await (process : Nat) (next : Ending → τ)
  /-- To put aside where some descriptors lead. -/
  | keep (descriptors : List Nat) (next : τ)
  /-- To have descriptors lead again where they led when they were put aside
  last. -/
  | restore (next : τ)
  /-- To change descriptors one after the other, to the first failure. -/
  | rewire (changes : List Rewire) (next : Option Fault → τ)
  /-- To become another program, which is looked for in the directories of a
  search path if its name has no slash. -/
  | become (program : String) (arguments bindings : List String) (search : Option String)
      (next : Fault → τ)
  /-- To send a signal to a process. -/
  | signal (process : Nat) (signal : Signal) (next : Bool → τ)
  /-- To ignore exactly these signals. -/
  | ignore (signals : List Signal) (next : τ)
  /-- Another working directory; the answer is its path from the root. -/
  | enter (path : String) (next : Except Fault String → τ)
  /-- To know what stands where a path leads. -/
  | inspect (path : String) (next : Except Fault Entry → τ)
  /-- To end. -/
  | finish (code : Nat)

/-- A request of a part of a process, as one of the whole process. -/
def Request.map {σ τ : Type} (f : σ → τ) : Request σ → Request τ
  | .proceed next => .proceed (f next)
  | .read descriptor limit next => .read descriptor limit (f ∘ next)
  | .write descriptor bytes next => .write descriptor bytes (f ∘ next)
  | .clock next => .clock (f ∘ next)
  | .sleep time next => .sleep time (f next)
  | .pipe next => .pipe fun reader writer => f (next reader writer)
  | .fork child next => .fork (f child) (f ∘ next)
  | .await process next => .await process (f ∘ next)
  | .keep descriptors next => .keep descriptors (f next)
  | .restore next => .restore (f next)
  | .rewire changes next => .rewire changes (f ∘ next)
  | .become program arguments bindings search next =>
    .become program arguments bindings search (f ∘ next)
  | .signal process which next => .signal process which (f ∘ next)
  | .ignore signals next => .ignore signals (f next)
  | .enter path next => .enter path (f ∘ next)
  | .inspect path next => .inspect path (f ∘ next)
  | .finish code => .finish code

end LineScript.Machine
