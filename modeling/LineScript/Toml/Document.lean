import LineScript.Toml.Quoted
import LineScript.Toml.Value

/-!
# Documents

A TOML document is a sequence of statements, one a line: a header opens a
table, and an entry binds a key in the table opened last. Reading a document
gives its top table, or nothing when it is not well formed. Arrays and tables
between braces may run over several lines, end with a comma, and be nested up
to a fixed depth.
-/

namespace LineScript.Toml

/-- A line of a document. -/
inductive Statement where
  /-- Opens a table. -/
  | header (path : List String)
  /-- Opens a further table under a repeated header. -/
  | nextHeader (path : List String)
  /-- Binds a key. -/
  | entry (path : List String) (value : Value)

namespace Statement

/-- The characters of keys without quotes. -/
def isKeyChar (c : Char) : Bool := c.isAlphanum || c = '_' || c = '-'

/-- Takes one part of a key. -/
def simpleKey : Scan String := do
  match ← Scan.next? with
  | some '"' => Quoted.line '"'
  | some '\'' => Quoted.line '\''
  | _ =>
    let word ← Scan.takeWhile isKeyChar
    if word = [] then Scan.refuse else return String.ofList word

/-- Takes a key of at most so many parts, with dots between them. -/
def dottedKey : Nat → Scan (List String)
  | 0 => Scan.refuse
  | fuel + 1 => do
    Scan.gap
    let first ← simpleKey
    Scan.gap
    if ← Scan.takeChar '.' then return first :: (← dottedKey fuel)
    return [first]

/-- Takes a key; every part of it takes at least one character. -/
def key : Scan (List String) := do dottedKey ((← get).length + 1)

/-- Takes a key, an equals sign and a value. -/
def binding (value : Scan Value) : Scan (List String × Value) := do
  let path ← key
  Scan.char '='
  Scan.gap
  return (path, ← value)

/-- Takes at most so many items with commas between them, and the closing
bracket. -/
def itemsUpTo {α : Type} (item : Scan α) (close : Char) : Nat → Scan (List α)
  | 0 => Scan.refuse
  | fuel + 1 => do
    Scan.trivia
    if ← Scan.takeChar close then return []
    let first ← item
    Scan.trivia
    if ← Scan.takeChar ',' then return first :: (← itemsUpTo item close fuel)
    Scan.char close
    return [first]

/-- Takes the items of a list; every item takes at least one character. -/
def items {α : Type} (item : Scan α) (close : Char) : Scan (List α) := do
  itemsUpTo item close ((← get).length + 1)

/-- The table that bindings between braces build. -/
def ofBindings (bindings : List (List String × Value)) : Option Entries :=
  bindings.foldlM (fun entries (path, value) => entries.bind value path) []

/-- Takes a value, given the step for the values nested in it; without one,
nothing may be nested. -/
def valueOver (inner : Option (Scan Value)) : Scan Value := do
  match ← Scan.next?, inner with
  | some '"', _ => return .string (← Quoted.scan '"')
  | some '\'', _ => return .string (← Quoted.scan '\'')
  | some '[', some value =>
    Scan.char '['
    return .array (← items value ']')
  | some '\x7b', some value =>
    Scan.char '\x7b'
    match ofBindings (← items (binding value) '\x7d') with
    | none => Scan.refuse
    | some entries => return .table .braces entries
  | _, _ => return .scalar (← Scalar.scan)

/-- Takes a value nested at most so deep. -/
def value : Nat → Scan Value
  | 0 => valueOver none
  | depth + 1 => valueOver (some (value depth))

/-- How deep values may be nested. -/
def depthLimit : Nat := 80

/-- Takes a statement, without what follows it on its line. -/
def scan : Scan Statement := do
  if ← Scan.takeChar '[' then
    if ← Scan.takeChar '[' then
      let path ← key
      Scan.char ']'
      Scan.char ']'
      return .nextHeader path
    else
      let path ← key
      Scan.char ']'
      return .header path
  else
    let (path, value) ← binding (value depthLimit)
    return .entry path value

/-- Takes at most so many statements, to the end of the document. -/
def all : Nat → Scan (List Statement)
  | 0 => Scan.refuse
  | fuel + 1 => do
    Scan.trivia
    match ← Scan.next? with
    | none => return []
    | some _ =>
      let first ← scan
      Scan.lineEnd
      return first :: (← all fuel)

end Statement

/-- A document as far as it was read: the top table, and the path of the table
opened last. -/
structure Document where
  /-- The entries of the top table. -/
  entries : Entries := []
  /-- The header of the open table; empty before the first header. -/
  current : List String := []

namespace Document

/-- Carries out a statement. -/
def step (document : Document) : Statement → Option Document
  | .header path => (document.entries.openTable path).map fun entries => ⟨entries, path⟩
  | .nextHeader path => (document.entries.openNext path).map fun entries => ⟨entries, path⟩
  | .entry path value =>
    (document.entries.under document.current (Entries.bind value path)).map fun entries =>
      { document with entries }

/-- The text without a byte order mark at its start. -/
def dropMark : List Char → List Char
  | '\ufeff' :: rest => rest
  | text => text

/-- Reads the top table of a document. -/
def read? (text : String) : Option Entries := do
  let chars := dropMark text.toList
  if returnsPaired chars then
    let statements ← (Statement.all (chars.length + 1)).whole? chars
    let document ← statements.foldlM step {}
    return document.entries
  else none

/-- A header may open a table that another header passed through, once. -/
example : (read? "[a.b]\n[a]").isSome = true ∧ (read? "[a.b]\n[a]\n[a]").isSome = false := by
  decide +kernel

end Document

end LineScript.Toml
