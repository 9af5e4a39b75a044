import LineScript.Shell.Arithmetic
import LineScript.Shell.Pattern
import LineScript.Shell.Scope

/-!
# Filling in words

What a word stands for: parameters, calculations and outputs of commands are
filled in, and the result is split into fields where unquoted values have
separators. The output of a command cannot be known here. Filling in stops at
the first output that is missing; once it is known, filling in starts anew from
the same values, so nothing happens twice.
-/

namespace LineScript.Shell

/-- A piece of a word that was filled in. -/
inductive Atom where
  /-- A character; separators may split the word at it. -/
  | char (c : Char) (quoted splits : Bool)
  /-- Quotes, which make a field even when nothing stands between them. -/
  | quotes
  /-- The end of one argument and the beginning of the next. -/
  | gap
  deriving DecidableEq, Repr

/-- Why filling in stops. -/
inductive Interrupt where
  /-- The output of a command is needed. -/
  | output (script : String)
  /-- It is not possible. -/
  | failed (message : String)
  deriving DecidableEq, Repr

/-- An output of a command. -/
structure Output where
  /-- The text. -/
  text : String
  /-- How the command ended. -/
  status : Nat
  deriving DecidableEq, Repr

/-- The state of filling in. -/
structure Filling where
  /-- The values, which may be changed on the way. -/
  scope : Scope
  /-- The outputs that are known and not yet used. -/
  outputs : List Output

/-- A step of filling in. -/
abbrev Expand := StateT Filling (Except Interrupt)

namespace Expand

/-- Stops for good. -/
def fail {α : Type} (message : String) : Expand α := fun _ => .error (.failed message)

/-- The output of a command. -/
def output (script : String) : Expand String := do
  let filling ← get
  match filling.outputs with
  | known :: outputs =>
    set { filling with outputs }
    return known.text
  | [] => fun _ => .error (.output script)

/-- Sets a variable, unless its value is to stay. -/
def assign (name value : String) : Expand Unit := do
  match (← get).scope.assign name value with
  | .ok scope => modify fun filling => { filling with scope }
  | .error message => fail message

/-- A text as atoms. -/
def atoms (quoted splits : Bool) (text : String) : List Atom :=
  (if quoted then [.quotes] else []) ++ text.toList.map fun c => .char c quoted splits

/-- The value of a parameter as atoms. -/
def valueAtoms (quoted : Bool) (text : String) : List Atom := atoms quoted (!quoted) text

/-- The characters of atoms; a gap is a blank. -/
def plain (atoms : List Atom) : String :=
  String.ofList (atoms.filterMap fun atom => match atom with
    | .char c _ _ => some c
    | .quotes => none
    | .gap => some ' ')

/-- The characters of atoms as those of a pattern. -/
def glyphs (atoms : List Atom) : List Glyph :=
  atoms.filterMap fun atom => match atom with
    | .char c quoted _ => some (c, quoted)
    | .quotes => none
    | .gap => some (' ', true)

/-- Texts as atoms with gaps between them. -/
def gapped (quoted : Bool) (texts : List String) : List Atom :=
  [Atom.gap].intercalate (texts.map (valueAtoms quoted))

/-- The first separator. -/
def joiner (scope : Scope) : String :=
  match (scope.get? "IFS").map String.toList with
  | none => " "
  | some [] => ""
  | some (c :: _) => c.toString

/-- All arguments as atoms. -/
def argumentAtoms (scope : Scope) (each quoted : Bool) : List Atom :=
  if quoted && !each then
    valueAtoms true ((joiner scope).intercalate scope.arguments)
  else gapped quoted scope.arguments

/-- The atoms of a parameter's value, if it has one. -/
def lookup (scope : Scope) (name : String) (quoted : Bool) : Option (List Atom) :=
  if name = "@" ∨ name = "*" then
    if scope.arguments.isEmpty then none
    else some (argumentAtoms scope (name = "@") quoted)
  else (scope.parameter? name).map (valueAtoms quoted)

/-- The number that a variable holds; without a value it counts as zero. -/
def numberOf (name : String) : Expand Int := do
  match ((← get).scope.get? name).getD "" with
  | "" => return 0
  | text =>
    match Calculation.integer? text with
    | some n => return n
    | none => fail ("Illegal number: " ++ text)

/-- Whether a parameter counts as having a value. -/
def counts (nonempty : Bool) : Option (List Atom) → Bool
  | none => false
  | some atoms => !nonempty || !(plain atoms).isEmpty

/-- Fills in a nested text by a step for its parts. -/
def nested (inner : Word → Expand (List Atom)) (quoted : Bool) (text : String) :
    Expand (List Atom) := do
  match Word.nested quoted text with
  | .ok word =>
    let atoms ← inner word
    return atoms.map fun atom => match atom with
      | .char c false _ => .char c false true
      | atom => atom
  | .error _ => fail "Bad substitution"

/-- Fills in a parameter. -/
def parameter (inner : Word → Expand (List Atom)) (name : String) (change : Change)
    (quoted : Bool) : Expand (List Atom) := do
  let scope := (← get).scope
  let value := lookup scope name quoted
  if value.isNone ∧ scope.demanding ∧ name ≠ "@" ∧ name ≠ "*" then
    match change with
    | .plain | .length | .cut _ _ _ => fail (name ++ ": parameter not set")
    | _ => pure ()
  match change with
  | .plain => return value.getD (if quoted ∧ name ≠ "@" then [.quotes] else [])
  | .length =>
    if name = "@" ∨ name = "*" then
      return valueAtoms quoted (toString scope.arguments.length)
    else return valueAtoms quoted (toString ((value.map plain).getD "").length)
  | .fallback nonempty word =>
    if counts nonempty value then return value.getD [] else nested inner quoted word
  | .assign nonempty word =>
    if counts nonempty value then return value.getD []
    else
      let text := plain (← nested inner quoted word)
      if Scope.isName name then
        assign name text
        return valueAtoms quoted text
      else fail (name ++ ": bad variable name")
  | .replacement nonempty word =>
    if counts nonempty value then nested inner quoted word
    else return if quoted then [.quotes] else []
  | .required nonempty word =>
    if counts nonempty value then return value.getD []
    else
      let text := plain (← nested inner quoted word)
      fail (name ++ ": " ++ if text = "" then "parameter not set" else text)
  | .cut atEnd longest form =>
    let pattern := Pattern.ofGlyphs (glyphs (← match Word.nested false form with
      | .ok word => inner word
      | .error _ => fail "Bad substitution"))
    let text := ((value.map plain).getD "").toList
    let kept := if atEnd then pattern.cutEnd longest text else pattern.cutStart longest text
    return valueAtoms quoted (String.ofList kept)

/-- A text without line ends at its end. -/
def dropLineEnds (text : String) : String :=
  String.ofList (text.toList.reverse.dropWhile (· = '\n')).reverse

/-- Fills in a part of a word, given the step for nested words. -/
def part (inner : Word → Expand (List Atom)) : Part → Expand (List Atom)
  | .text text quoted => return atoms quoted false text
  | .parameter name change quoted => parameter inner name change quoted
  | .output script quoted => do
    return valueAtoms quoted (dropLineEnds (← output script))
  | .arithmetic expression quoted => do
    let text := plain (← nested inner true expression)
    match Calculation.read? text with
    | none => fail ("arithmetic expression: expecting primary: \"" ++ text ++ "\"")
    | some calculation =>
      let result ← calculation.run numberOf (fun name n => assign name (toString n))
        (fail "division by zero")
      return valueAtoms quoted (toString result)

/-- A word in which a tilde before a slash, or all by itself, is the home
directory. -/
def homeward (scope : Scope) (word : Word) : Word :=
  match scope.get? "HOME", word with
  | some home, .text written false :: parts =>
    match written.toList with
    | '~' :: rest =>
      if rest.head? = some '/' ∨ (rest.isEmpty ∧ parts.isEmpty) then
        .text home true :: .text (String.ofList rest) false :: parts
      else word
    | _ => word
  | _, _ => word

/-- Fills in a word that is nested at most so deep. -/
def word : Nat → Word → Expand (List Atom)
  | 0, _ => fail "Bad substitution"
  | depth + 1, parts => do
    let scope := (← get).scope
    (homeward scope parts).foldlM (fun atoms p => return atoms ++ (← part (word depth) p)) []

/-- How deep words may be nested. -/
def depthLimit : Nat := 50

/-! ## Fields -/

/-- The state of splitting. -/
structure Splitting where
  /-- The fields so far, the last one first. -/
  fields : List String := []
  /-- The characters of the field at hand, the last one first. -/
  current : Option (List Char) := none
  /-- Whether the last field was ended by blanks alone. -/
  pending : Bool := false

/-- Ends the field at hand. -/
def Splitting.close (s : Splitting) (pending : Bool) : Splitting :=
  match s.current with
  | none => s
  | some chars => ⟨String.ofList chars.reverse :: s.fields, none, pending⟩

/-- Takes an atom into account. -/
def Splitting.step (separators : List Char) (s : Splitting) : Atom → Splitting
  | .gap => s.close false
  | .quotes => { s with current := some (s.current.getD []), pending := false }
  | .char c _ splits =>
    if splits && separators.contains c then
      if c = ' ' || c = '\t' || c = '\n' then s.close true
      else
        match s.current with
        | some _ => s.close false
        | none =>
          if s.pending then { s with pending := false } else { s with fields := "" :: s.fields }
    else { s with current := some (c :: s.current.getD []), pending := false }

/-- The fields of atoms. -/
def split (separators : List Char) (atoms : List Atom) : List String :=
  ((atoms.foldl (Splitting.step separators) {}).close false).fields.reverse

/-- The characters that separate fields. -/
def separators (scope : Scope) : List Char := ((scope.get? "IFS").getD " \t\n").toList

/-- A word as one text. -/
def text (w : Word) : Expand String := do return plain (← word depthLimit w)

/-- The fields of words. Words that assign are not split after a command that
declares variables. -/
def fields (words : List Word) (declares : Bool := false) : Expand (List String) :=
  words.foldlM (fun all w => do
    if declares then
      if let some (name, value) := Word.assignment? w then
        return all ++ [name ++ "=" ++ (← text value)]
    let atoms ← word depthLimit w
    return all ++ split (separators (← get).scope) atoms) []

/-- A word as a pattern. -/
def pattern (w : Word) : Expand Pattern := do
  return Pattern.ofGlyphs (glyphs (← word depthLimit w))

end Expand

end LineScript.Shell
