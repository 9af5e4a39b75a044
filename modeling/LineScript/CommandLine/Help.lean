import LineScript.CommandLine.Parameter

/-!
# Help

The texts that the program prints about itself: a short help with one line for
each parameter, a long one with paragraphs, and the version.
-/

namespace LineScript.Help

/-- The name and number of this version. -/
def version : String := "tester 0.1.0\n"

/-- What both helps begin with. -/
def heading : String :=
  "Drive a line-oriented program with a script of input lines and directives.\n\n" ++
    "Usage: tester [OPTIONS] --program <PATH> [-- <ARGS>...]\n\n"

/-- The arguments of the program, as the help names them. -/
def argsName : String := "[ARGS]..."

/-- What the help says about the arguments of the program. -/
def argsSummary : String := "Extra arguments passed to the program on every RESTART"

/-- The names of a parameter, and its value. -/
def names (p : Parameter) : String :=
  let letter := match p.letter? with
    | some c => s!"-{c}, "
    | none => "    "
  let value := match p.valueName? with
    | some name => s!" <{name}>"
    | none => ""
  s!"  {letter}--{p.name}{value}"

/-- The values to choose from. -/
def choices (p : Parameter) : Option String :=
  match p.choices with
  | [] => none
  | values =>
    let list := ", ".intercalate values
    some s!"[possible values: {list}]"

/-- A text filled up with blanks to a width. -/
def padded (width : Nat) (text : String) : String :=
  text ++ String.ofList (List.replicate (width - text.length) ' ')

/-- The column where the short help describes the parameters. -/
def column : Nat := ((Parameter.all.map fun p => (names p).length).max?.getD 0) + 2

/-- A parameter's line of the short help. -/
def shortEntry (p : Parameter) : String :=
  let hint := if p = .help then " (see more with '--help')" else ""
  let values := match choices p with
    | some text => " " ++ text
    | none => ""
  padded column (names p) ++ p.summary ++ hint ++ values ++ "\n"

/-- The short help. -/
def short : String :=
  heading ++ s!"Arguments:\n  {argsName}  {argsSummary}\n\nOptions:\n" ++
    String.join (Parameter.all.map shortEntry)

/-- The indentation of the long help. -/
def indent : String := "          "

/-- Paragraphs of the long help, with an indented line between them. -/
def paragraphs (texts : List String) : String :=
  s!"\n{indent}\n".intercalate (texts.map (indent ++ ·)) ++ "\n"

/-- A parameter's entry of the long help. A summary that is followed by
details ends with a full stop. -/
def longEntry (p : Parameter) : String :=
  let hint := if p = .help then " (see a summary with '-h')" else ""
  let texts := match p.details? with
    | some details => [p.summary ++ ".", details]
    | none => [p.summary ++ hint]
  names p ++ "\n" ++ paragraphs (texts ++ (choices p).toList)

/-- The long help. -/
def long : String :=
  heading ++ s!"Arguments:\n  {argsName}\n" ++ paragraphs [argsSummary] ++ "\nOptions:\n" ++
    "\n".intercalate (Parameter.all.map longEntry)

end LineScript.Help
