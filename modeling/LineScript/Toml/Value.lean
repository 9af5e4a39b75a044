import LineScript.Toml.Scalar

/-!
# Values and tables

The values of a TOML document and the rules by which its statements build them.
A table remembers how it came about, because that decides who may still add to
it: a header may open a table that other headers only passed through, a dotted
key may go on where dotted keys have been, and a table written between braces
is closed.
-/

namespace LineScript.Toml

/-- How a table came about. -/
inductive Origin where
  /-- Opened by a header. -/
  | header
  /-- Passed through by the header of another table. -/
  | passed
  /-- Passed through by a dotted key. -/
  | dotted
  /-- Written between braces. -/
  | braces
  deriving DecidableEq, Repr

/-- A value. Tables list their entries in the order of their statements. -/
inductive Value where
  /-- A string. -/
  | string (text : String)
  /-- An unquoted value. -/
  | scalar (value : Scalar)
  /-- A list between brackets. -/
  | array (items : List Value)
  /-- A table. -/
  | table (origin : Origin) (entries : List (String × Value))
  /-- Tables under one repeated header: the earlier ones, and the latest. -/
  | tables (earlier : List (List (String × Value))) (latest : List (String × Value))
  deriving Repr

/-- The entries of a table. -/
abbrev Entries := List (String × Value)

namespace Entries

/-- The entries with a key bound to a value, in the place of an older binding. -/
def put (key : String) (value : Value) : Entries → Entries
  | [] => [(key, value)]
  | entry :: rest =>
    if entry.1 = key then (key, value) :: rest else entry :: put key value rest

/-- The entries with a key that must not be bound yet. -/
def add (key : String) (value : Value) (entries : Entries) : Option Entries :=
  match entries.lookup key with
  | some _ => none
  | none => some (entries ++ [(key, value)])

/-- A way into the table below a key: its entries, and how it is put back. -/
abbrev Way := Option Value → Option (Entries × (Entries → Value))

/-- The way of a header past a key. -/
def passing : Way
  | none => some ([], .table .passed)
  | some (.table .braces _) => none
  | some (.table origin entries) => some (entries, .table origin)
  | some (.tables earlier latest) => some (latest, .tables earlier)
  | some _ => none

/-- The way of a dotted key past a key. -/
def through : Way
  | none => some ([], .table .dotted)
  | some (.table .dotted entries) => some (entries, .table .dotted)
  | some (.table .passed entries) => some (entries, .table .passed)
  | some (.tables earlier latest) => some (latest, .tables earlier)
  | some _ => none

/-- The way of a dotted key into the table that it adds to. -/
def into : Way
  | none => some ([], .table .dotted)
  | some (.table .dotted entries) => some (entries, .table .dotted)
  | some _ => none

/-- Changes the table on a way below a key. -/
def below (way : Way) (key : String) (change : Entries → Option Entries) (entries : Entries) :
    Option Entries := do
  let (inner, back) ← way (entries.lookup key)
  return put key (back (← change inner)) entries

/-- Binds a dotted key. -/
def bind (value : Value) : List String → Entries → Option Entries
  | [], _ => none
  | [key], entries => add key value entries
  | [table, key], entries => below into table (add key value) entries
  | table :: path, entries => below through table (bind value path) entries

/-- Opens the table that a header names. -/
def openTable : List String → Entries → Option Entries
  | [], _ => none
  | [key], entries =>
    match entries.lookup key with
    | none => some (put key (.table .header []) entries)
    | some (.table .passed inner) => some (put key (.table .header inner) entries)
    | some _ => none
  | table :: path, entries => below passing table (openTable path) entries

/-- Opens a further table under a repeated header. -/
def openNext : List String → Entries → Option Entries
  | [], _ => none
  | [key], entries =>
    match entries.lookup key with
    | none => some (put key (.tables [] []) entries)
    | some (.tables earlier latest) => some (put key (.tables (earlier ++ [latest]) []) entries)
    | some _ => none
  | table :: path, entries => below passing table (openNext path) entries

/-- Changes the table that a header has opened. -/
def under : List String → (Entries → Option Entries) → Entries → Option Entries
  | [], change, entries => change entries
  | table :: path, change, entries => below passing table (under path change) entries

end Entries

end LineScript.Toml
