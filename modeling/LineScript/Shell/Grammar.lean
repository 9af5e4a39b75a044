import LineScript.Shell.Command

/-!
# The shell's grammar

How a text is read as commands. Commands are read one line at a time, where a
line goes on as long as something is left open. A text that breaks off is told
apart from one that is wrong, because more of it may still come.
-/

namespace LineScript.Shell

/-- A step that reads a command from the front of a text. -/
abbrev Parse := StateT (List Char) (Except Problem)

namespace Parse

/-- The operators that are no redirections, longer ones first. -/
def operators : List String := ["&&", "||", ";;", ";", "&", "|", "(", ")", "\n"]

/-- The words that end a list of commands. -/
def closers : List String := ["then", "else", "elif", "fi", "do", "done", "esac", "\x7d"]

/-- The text without blanks, joined lines and a comment at its start. -/
def skipBlanks : List Char → List Char
  | ' ' :: rest => skipBlanks rest
  | '\t' :: rest => skipBlanks rest
  | '\\' :: '\n' :: rest => skipBlanks rest
  | '#' :: rest => rest.dropWhile (· ≠ '\n')
  | text => text

/-- What follows a given beginning of a text. -/
def after? (start : String) (text : List Char) : Option (List Char) :=
  if start.toList.isPrefixOf text then some (text.drop start.length) else none

/-- Fails at what is wrong. -/
def malformed {α : Type} : Parse α := fun _ => .error .malformed

/-- Fails: incomplete at the end of the text, and wrong elsewhere. -/
def unexpected {α : Type} : Parse α := do
  match skipBlanks (← get) with
  | [] => fun _ => .error .incomplete
  | _ => malformed

/-- Takes blanks. -/
def blanks : Parse Unit := modify skipBlanks

/-- The operator that comes next, which stays in place. -/
def peekOperator : Parse (Option String) := do
  blanks
  let text ← get
  return operators.find? fun op => (after? op text).isSome

/-- Takes an operator if it comes next. -/
def takeOperator (op : String) : Parse Bool := do
  if (← peekOperator) = some op then
    modify fun text => text.drop op.length
    return true
  return false

/-- Takes an operator, which must come next. -/
def operator (op : String) : Parse Unit := do
  if ! (← takeOperator op) then unexpected

/-- The text after blanks, line ends and comments; `fuel` bounds their
number. -/
def skipLines : Nat → List Char → List Char
  | 0, text => text
  | fuel + 1, text =>
    match skipBlanks text with
    | '\n' :: rest => skipLines fuel rest
    | rest => rest

/-- Takes blanks and line ends. -/
def lines : Parse Unit := modify fun text => skipLines (text.length + 1) text

/-- Takes a word, if one comes next. -/
def word? : Parse (Option Word) := do
  blanks
  let text ← get
  match text with
  | [] => return none
  | c :: _ =>
    if Word.isMeta c then return none
    let (word, rest) ← liftM (Word.scan text)
    set rest
    return some word

/-- Takes a word, which must come next. -/
def word : Parse Word := do
  match ← word? with
  | some word => return word
  | none => unexpected

/-- The plain word that comes next, which stays in place. -/
def peekBare : Parse (Option String) := do
  let text ← get
  let word ← word?
  set text
  return word.bind Word.bare?

/-- Takes a given plain word if it comes next. -/
def takeBare (text : String) : Parse Bool := do
  if (← peekBare) = some text then
    let _ ← word
    return true
  return false

/-- Takes a given plain word, which must come next. -/
def bare (text : String) : Parse Unit := do
  if ! (← takeBare text) then unexpected

/-- The signs of redirections, longer ones first. -/
def redirectSigns : List (String × RedirectKind × Nat) :=
  [("<&", .duplicate, 0), ("<", .input, 0), (">>", .append, 1), (">&", .duplicate, 1),
    (">|", .output, 1), (">", .output, 1)]

/-- The lines of a document up to the line that ends it, and the text after
that line. Tabs at the start of lines are dropped if `tabless`. -/
def documentLines (tabless : Bool) (ending : List Char) :
    Nat → List Char → Option (List Char × List Char)
  | 0, _ | _, [] => none
  | fuel + 1, text =>
    let (line, rest) := text.span (· ≠ '\n')
    let line := if tabless then line.dropWhile (· = '\t') else line
    if line = ending then some ([], rest.drop 1)
    else (documentLines tabless ending fuel (rest.drop 1)).map fun (body, after) =>
      (line ++ '\n' :: body, after)

/-- Takes the word that ends a document, and the document, which begins at the
next line. -/
def document (tabless : Bool) : Parse Word := do
  let ending ← word
  let (line, rest) := (← get).span (· ≠ '\n')
  match documentLines tabless ending.spelled (rest.length + 1) (rest.drop 1) with
  | none => fun _ => .error .incomplete
  | some (body, after) =>
    set (line ++ '\n' :: after)
    if ending.isQuoted then return [.text (String.ofList body) true]
    else liftM (Word.ofDocument body)

/-- Takes a redirection, if one comes next. -/
def redirect? : Parse (Option Redirect) := do
  blanks
  let text ← get
  let (digits, rest) := text.span Char.isDigit
  let descriptor (usual : Nat) : Nat := if digits = [] then usual else
    digits.foldl (fun n c => 10 * n + (c.toNat - '0'.toNat)) 0
  match rest with
  | '<' :: '<' :: '-' :: more =>
    set more
    return some ⟨descriptor 0, .document, ← document true⟩
  | '<' :: '<' :: more =>
    set more
    return some ⟨descriptor 0, .document, ← document false⟩
  | '<' :: '>' :: _ => malformed
  | _ =>
    match redirectSigns.find? fun sign => (after? sign.1 rest).isSome with
    | none => return none
    | some (sign, kind, usual) =>
      set (rest.drop sign.length)
      return some ⟨descriptor usual, kind, ← word⟩

/-- Takes at most so many redirections. -/
def redirects : Nat → Parse (List Redirect)
  | 0 => return []
  | fuel + 1 => do
    match ← redirect? with
    | none => return []
    | some redirect => return redirect :: (← redirects fuel)

/-- The parts of a simple command. -/
structure Simple where
  /-- Variables that are set. -/
  assignments : List (String × Word) := []
  /-- The command's name and its arguments. -/
  words : List Word := []
  /-- Its redirections. -/
  redirects : List Redirect := []

/-- Takes at most so many parts of a simple command. -/
def simpleParts : Nat → Simple → Parse Simple
  | 0, parts => return parts
  | fuel + 1, parts => do
    match ← redirect? with
    | some redirect => simpleParts fuel { parts with redirects := parts.redirects ++ [redirect] }
    | none =>
      match ← word? with
      | none => return parts
      | some word =>
        match Word.assignment? word, parts.words with
        | some assignment, [] =>
          simpleParts fuel { parts with assignments := parts.assignments ++ [assignment] }
        | _, words => simpleParts fuel { parts with words := words ++ [word] }

/-- Takes at most so many words. -/
def words : Nat → Parse (List Word)
  | 0 => return []
  | fuel + 1 => do
    match ← word? with
    | none => return []
    | some word => return word :: (← words fuel)

/-- Takes the patterns of an arm up to the parenthesis, at most so many. -/
def patterns : Nat → Parse (List Word)
  | 0 => unexpected
  | fuel + 1 => do
    let first ← word
    if ← takeOperator "|" then return first :: (← patterns fuel)
    operator ")"
    return [first]

/-- Whether a list of commands ends here. -/
def atEnd : Parse Bool := do
  match ← peekOperator with
  | some ")" | some ";;" => return true
  | some _ => return false
  | none =>
    if (← get).isEmpty then return true
    match ← peekBare with
    | some text => return closers.contains text
    | none => return false

/-- A list of commands that may not be empty. -/
def nonempty (command : Command) : Parse Command :=
  match command with
  | .nothing => unexpected
  | command => return command

/-- One command after another, where nothing counts for nothing. -/
def join : Command → Command → Command
  | .nothing, second => second
  | first, .nothing => first
  | first, second => .sequence first second

mutual

/-- Takes commands up to a word or sign that ends them. -/
def list : Nat → Parse Command
  | 0 => malformed
  | fuel + 1 => do
    lines
    if ← atEnd then return .nothing
    let first ← conditional fuel
    if ← takeOperator "&" then return join (.background first) (← list fuel)
    if ← takeOperator ";" then return join first (← list fuel)
    if ← takeOperator "\n" then return join first (← list fuel)
    return first

/-- Takes commands that are joined by success or failure. -/
def conditional : Nat → Parse Command
  | 0 => malformed
  | fuel + 1 => do conditionalAfter fuel (← pipeline fuel)

/-- Takes what is joined to a command by success or failure. -/
def conditionalAfter : Nat → Command → Parse Command
  | 0, _ => malformed
  | fuel + 1, first => do
    if ← takeOperator "&&" then
      lines
      conditionalAfter fuel (.conditional true first (← pipeline fuel))
    else if ← takeOperator "||" then
      lines
      conditionalAfter fuel (.conditional false first (← pipeline fuel))
    else return first

/-- Takes a pipeline. -/
def pipeline : Nat → Parse Command
  | 0 => malformed
  | fuel + 1 => do
    if ← takeBare "!" then return .negated (← pipeline fuel)
    match ← stages fuel with
    | [command] => return command
    | commands => return .pipeline commands

/-- Takes the commands of a pipeline. -/
def stages : Nat → Parse (List Command)
  | 0 => malformed
  | fuel + 1 => do
    let first ← command fuel
    if ← takeOperator "|" then
      lines
      return first :: (← stages fuel)
    return [first]

/-- Takes a command and its redirections. -/
def command : Nat → Parse Command
  | 0 => malformed
  | fuel + 1 => do
    if ← takeOperator "(" then
      let body ← nonempty (← list fuel)
      operator ")"
      redirectedBody fuel (.subshell body)
    else
      match ← peekBare with
      | some "\x7b" =>
        let _ ← word
        let body ← nonempty (← list fuel)
        bare "\x7d"
        redirectedBody fuel body
      | some "if" =>
        let _ ← word
        redirectedBody fuel (← choice fuel)
      | some "while" =>
        let _ ← word
        redirectedBody fuel (← loop fuel false)
      | some "until" =>
        let _ ← word
        redirectedBody fuel (← loop fuel true)
      | some "for" =>
        let _ ← word
        redirectedBody fuel (← each fuel)
      | some "case" =>
        let _ ← word
        redirectedBody fuel (← select fuel)
      | some text => if closers.contains text then malformed else simple fuel
      | none => simple fuel

/-- Takes the redirections of a command. -/
def redirectedBody : Nat → Command → Parse Command
  | 0, _ => malformed
  | fuel + 1, body => do
    match ← redirects fuel with
    | [] => return body
    | all => return .redirected body all

/-- Takes a simple command or the definition of a name. -/
def simple : Nat → Parse Command
  | 0 => malformed
  | fuel + 1 => do
    let parts ← simpleParts fuel {}
    match parts with
    | ⟨[], [], []⟩ => unexpected
    | ⟨[], [word], []⟩ =>
      if ← takeOperator "(" then
        operator ")"
        lines
        match Word.bare? word with
        | some name => return .define name (← command fuel)
        | none => malformed
      else return .simple [] [word] []
    | ⟨assignments, words, redirects⟩ => return .simple assignments words redirects

/-- Takes a choice after its first word. -/
def choice : Nat → Parse Command
  | 0 => malformed
  | fuel + 1 => do
    let condition ← nonempty (← list fuel)
    bare "then"
    let body ← nonempty (← list fuel)
    if ← takeBare "elif" then return .choice condition body (← choice fuel)
    if ← takeBare "else" then
      let otherwise ← nonempty (← list fuel)
      bare "fi"
      return .choice condition body otherwise
    bare "fi"
    return .choice condition body .nothing

/-- Takes a loop after its first word. -/
def loop : Nat → Bool → Parse Command
  | 0, _ => malformed
  | fuel + 1, untilTrue => do
    let condition ← nonempty (← list fuel)
    return .loop untilTrue condition (← loopBody fuel)

/-- Takes the body of a loop. -/
def loopBody : Nat → Parse Command
  | 0 => malformed
  | fuel + 1 => do
    bare "do"
    let body ← nonempty (← list fuel)
    bare "done"
    return body

/-- Takes a loop over words after its first word. -/
def each : Nat → Parse Command
  | 0 => malformed
  | fuel + 1 => do
    match Word.bare? (← word) with
    | none => malformed
    | some name =>
      let _ ← takeOperator ";"
      lines
      if ← takeBare "in" then
        let all ← words fuel
        if ! (← takeOperator ";") then operator "\n"
        lines
        return .each name (some all) (← loopBody fuel)
      else return .each name none (← loopBody fuel)

/-- Takes a selection after its first word. -/
def select : Nat → Parse Command
  | 0 => malformed
  | fuel + 1 => do
    let subject ← word
    lines
    bare "in"
    return .select subject (← arms fuel)

/-- Takes the arms of a selection and the word that ends it. -/
def arms : Nat → Parse (List (List Word × Command))
  | 0 => malformed
  | fuel + 1 => do
    lines
    if ← takeBare "esac" then return []
    let _ ← takeOperator "("
    let forms ← patterns fuel
    let body ← list fuel
    if ← takeOperator ";;" then return (forms, body) :: (← arms fuel)
    lines
    bare "esac"
    return [(forms, body)]

end

/-- Takes the commands of a line, at most so many. -/
def lineCommands : Nat → Parse Command
  | 0 => malformed
  | fuel + 1 => do
    blanks
    if (← get).isEmpty then return .nothing
    if ← takeOperator "\n" then return .nothing
    let first ← conditional (10 * fuel)
    if ← takeOperator "&" then return join (.background first) (← lineCommands fuel)
    if ← takeOperator ";" then return join first (← lineCommands fuel)
    blanks
    if (← get).isEmpty then return first
    operator "\n"
    return first

end Parse

/-- What the start of a text says. -/
inductive Reading where
  /-- Nothing is left to say. -/
  | blank
  /-- A command, and the text after it. -/
  | line (command : Command) (rest : List Char)
  /-- A command that goes on beyond the text. -/
  | incomplete
  /-- No command. -/
  | malformed

/-- Reads the line of commands at the start of a text. Unless the text is
`complete`, a line that reaches its end may go on. -/
def Reading.of (complete : Bool) (text : List Char) : Reading :=
  let text := Parse.skipLines (text.length + 1) text
  if text.isEmpty then .blank
  else
    match (Parse.lineCommands (text.length + 2)).run text with
    | .ok (command, rest) =>
      if rest.isEmpty ∧ !complete ∧ text.getLast? ≠ some '\n' then .incomplete
      else .line command rest
    | .error .incomplete => if complete then .malformed else .incomplete
    | .error .malformed => .malformed

end LineScript.Shell
