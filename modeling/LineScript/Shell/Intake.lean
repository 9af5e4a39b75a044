import LineScript.Shell.State

/-!
# Reading lines into variables

A line is read byte by byte, so that nothing behind its end is taken. Then it is
cut at separators, and each variable gets a field.
-/

namespace LineScript.Shell

/-- The first field of a line, and what follows the separator after it. A
separator is one that is no blank, with the blanks around it, or blanks. -/
def firstField (separators : List Char) (line : List (Char × Bool)) :
    List Char × List (Char × Bool) :=
  let separates (c : Char × Bool) : Bool := !c.2 && separators.contains c.1
  let blank (c : Char × Bool) : Bool := separates c && (c.1 = ' ' || c.1 = '\t' || c.1 = '\n')
  let (field, rest) := line.span fun c => !separates c
  let rest := rest.dropWhile blank
  let rest := match rest with
    | c :: more => if separates c then more.dropWhile blank else rest
    | [] => []
  (field.map Prod.fst, rest)

/-- Puts the fields of a line into variables. The last variable takes all that
is left, without the blanks at its end. -/
def takeFields (scope : Scope) (line : List (Char × Bool)) :
    List String → Except String Scope
  | [] => .ok scope
  | [name] =>
    let separators := Expand.separators scope
    let blank (c : Char × Bool) : Bool :=
      !c.2 && separators.contains c.1 && (c.1 = ' ' || c.1 = '\t' || c.1 = '\n')
    let kept := (line.reverse.dropWhile blank).reverse
    scope.assign name (String.ofList (kept.map Prod.fst))
  | name :: names => do
    let (field, rest) := firstField (Expand.separators scope) line
    takeFields (← scope.assign name (String.ofList field)) rest names

/-- Puts a line that was read, the last character first, into variables. -/
def takeLine (sh : Shell) (names : List String) (line : List (Char × Bool)) (status : Nat) :
    Shell :=
  let separators := Expand.separators sh.scope
  let blank (c : Char × Bool) : Bool :=
    !c.2 && separators.contains c.1 && (c.1 = ' ' || c.1 = '\t' || c.1 = '\n')
  match takeFields sh.scope (line.reverse.dropWhile blank) names with
  | .ok scope => { sh with scope }.doing (.finished status)
  | .error message => sh.complain message 2

/-- Takes in a byte of a line. -/
def readByte (sh : Shell) (names : List String) (raw : Bool) (line : List (Char × Bool))
    (escaped : Bool) (byte : UInt8) : Shell :=
  let c := Char.ofNat byte.toNat
  if c = '\x00' then sh
  else if escaped then
    sh.doing (.readLine names raw (if c = '\n' then line else (c, true) :: line) false)
  else if c = '\\' ∧ !raw then sh.doing (.readLine names raw line true)
  else if c = '\n' then takeLine sh names line 0
  else sh.doing (.readLine names raw ((c, false) :: line) false)

end LineScript.Shell
