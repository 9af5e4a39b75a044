/-!
# Scanning a document

Steps that take characters from the front of a text or refuse it, and what all
parts of a TOML document share: blanks, comments and line ends. Only tabs and
spaces are blanks, and a line ends with a line feed that may follow a carriage
return.
-/

namespace LineScript.Toml

/-- A step that consumes a text from the front, or refuses it. -/
abbrev Scan := StateT (List Char) Option

/-- The blanks inside a line. -/
def isGap (c : Char) : Bool := c = ' ' || c = '\t'

/-- The characters allowed in comments and in strings of one line: all but
controls, of which only the tab is allowed. -/
def isPrintable (c : Char) : Bool := c = '\t' || (' ' ≤ c && c ≠ '\x7f')

/-- Whether every carriage return stands before a line feed. -/
def returnsPaired : List Char → Bool
  | [] => true
  | '\r' :: '\n' :: rest => returnsPaired rest
  | c :: rest => c ≠ '\r' && returnsPaired rest

/-- The text without the blanks, line ends and comments that begin it. -/
def skipTrivia (inComment : Bool) : List Char → Option (List Char)
  | [] => some []
  | '\r' :: '\n' :: rest => skipTrivia false rest
  | '\n' :: rest => skipTrivia false rest
  | c :: rest =>
    if inComment then
      if isPrintable c then skipTrivia true rest else none
    else if isGap c then skipTrivia false rest
    else if c = '#' then skipTrivia true rest
    else some (c :: rest)

namespace Scan

/-- Refuses the text. -/
def refuse {α : Type} : Scan α := fun _ => none

/-- The next character, which stays in place. -/
def next? : Scan (Option Char) := do return (← get).head?

/-- Takes the next character, whatever it is. -/
def anyChar : Scan Char
  | [] => none
  | c :: rest => some (c, rest)

/-- Takes a given character if it comes next, and tells whether it did. -/
def takeChar (c : Char) : Scan Bool
  | [] => some (false, [])
  | d :: rest => some (if d = c then (true, rest) else (false, d :: rest))

/-- Takes a given character, which must come next. -/
def char (c : Char) : Scan Unit := do
  if ! (← takeChar c) then refuse

/-- Takes the longest run of characters of a class. -/
def takeWhile (p : Char → Bool) : Scan (List Char) := fun text => some (text.span p)

/-- Takes the blanks that come next. -/
def gap : Scan Unit := do let _ ← takeWhile isGap

/-- Takes blanks, line ends and comments. -/
def trivia : Scan Unit := fun text => (skipTrivia false text).map fun rest => ((), rest)

/-- Takes what may follow a statement on its line: blanks, a comment, and the
line end or the end of the document. -/
def lineEnd : Scan Unit := do
  gap
  if ← takeChar '#' then
    let _ ← takeWhile isPrintable
  let _ ← takeChar '\r'
  match ← next? with
  | none => return
  | some _ => char '\n'

/-- The result of a step that must consume the whole of a text. -/
def whole? {α : Type} (step : Scan α) (text : List Char) : Option α :=
  match step.run text with
  | some (a, []) => some a
  | _ => none

end Scan

end LineScript.Toml
