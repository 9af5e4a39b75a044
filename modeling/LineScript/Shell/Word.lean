/-!
# Words of the shell

A word is written as a row of parts: plain and quoted text, and what is filled
in when the word is used, which is the value of a parameter, the result of a
calculation, or the output of a command. Scanning a word finds its parts; what
is nested in them is kept as text until it is needed.
-/

namespace LineScript.Shell

/-- Why a text cannot be understood. -/
inductive Problem where
  /-- It breaks off; more text may help. -/
  | incomplete
  /-- It is wrong. -/
  | malformed
  deriving DecidableEq, Repr

/-- What becomes of a parameter's value. -/
inductive Change where
  /-- It is used as it is. -/
  | plain
  /-- Its length is used. -/
  | length
  /-- Without a value, a word is used. -/
  | fallback (nonempty : Bool) (word : String)
  /-- Without a value, a word is used and becomes the value. -/
  | assign (nonempty : Bool) (word : String)
  /-- With a value, a word is used. -/
  | replacement (nonempty : Bool) (word : String)
  /-- Without a value, the shell complains. -/
  | required (nonempty : Bool) (word : String)
  /-- A beginning or an end of a given form is cut off. -/
  | cut (atEnd longest : Bool) (pattern : String)
  deriving DecidableEq, Repr

/-- A part of a word. -/
inductive Part where
  /-- Text. -/
  | text (text : String) (quoted : Bool)
  /-- The value of a parameter. -/
  | parameter (name : String) (change : Change) (quoted : Bool)
  /-- The result of a calculation. -/
  | arithmetic (expression : String) (quoted : Bool)
  /-- The output of a command. -/
  | output (script : String) (quoted : Bool)
  deriving DecidableEq, Repr

/-- A word. -/
abbrev Word := List Part

namespace Word

/-- Whether a character ends a word. -/
def isMeta (c : Char) : Bool :=
  c = ' ' || c = '\t' || c = '\n' || c = ';' || c = '&' || c = '|' || c = '<' || c = '>' ||
    c = '(' || c = ')'

/-- Whether a character may begin a name. -/
def isNameStart (c : Char) : Bool := c.isAlpha || c = '_'

/-- Whether a character may stand in a name. -/
def isNameChar (c : Char) : Bool := c.isAlphanum || c = '_'

/-- Whether a character is the name of a special parameter. -/
def isSpecial (c : Char) : Bool :=
  c = '@' || c = '*' || c = '#' || c = '?' || c = '-' || c = '$' || c = '!'

/-- The opening brace. -/
def openBrace : Char := '\x7b'

/-- The closing brace. -/
def closeBrace : Char := '\x7d'

/-- The backquote. -/
def backquote : Char := '\x60'

/-- Text up to the end of a single-quoted string, and what follows. -/
def singleQuoted : List Char → Except Problem (List Char × List Char)
  | [] => .error .incomplete
  | '\'' :: rest => .ok ([], rest)
  | c :: rest => (singleQuoted rest).map fun (body, after) => (c :: body, after)

/-- Where a bracket closes: text up to there, and what follows. Brackets inside
and quoted text are passed over. -/
def balanced (opening closing : Char) : Nat → Nat → Option Char → List Char →
    Except Problem (List Char × List Char)
  | 0, _, _, _ | _, _, _, [] => .error .incomplete
  | fuel + 1, depth, quote, c :: rest =>
    let onward (depth : Nat) (quote : Option Char) :=
      (balanced opening closing fuel depth quote rest).map fun (body, after) => (c :: body, after)
    match quote with
    | some '\'' => onward depth (if c = '\'' then none else quote)
    | _ =>
      if c = '\\' then
        match rest with
        | [] => .error .incomplete
        | d :: more =>
          (balanced opening closing fuel depth quote more).map fun (body, after) =>
            (c :: d :: body, after)
      else if c = '"' then onward depth (if quote = some '"' then none else some '"')
      else if c = '\'' ∧ quote = none then onward depth (some '\'')
      else if c = closing ∧ quote = none then
        if depth = 0 then .ok ([], rest) else onward (depth - 1) quote
      else if c = opening ∧ quote = none then onward (depth + 1) quote
      else onward depth quote

/-- Text up to the closing backquote, and what follows. A backslash is dropped
before the characters that it protects. -/
def backquoted (inQuotes : Bool) : List Char → Except Problem (List Char × List Char)
  | [] => .error .incomplete
  | '\\' :: c :: rest =>
    (backquoted inQuotes rest).map fun (body, after) =>
      if c = backquote ∨ c = '\\' ∨ c = '$' ∨ (inQuotes ∧ c = '"') then (c :: body, after)
      else ('\\' :: c :: body, after)
  | c :: rest =>
    if c = backquote then .ok ([], rest)
    else (backquoted inQuotes rest).map fun (body, after) => (c :: body, after)

/-- What the text after a parameter's name does with its value. -/
def change? (text : List Char) : Option Change :=
  let (nonempty, rest) := match text with
    | ':' :: more => (true, more)
    | _ => (false, text)
  let word := String.ofList rest.tail
  match nonempty, rest with
  | false, [] => some .plain
  | _, '-' :: _ => some (.fallback nonempty word)
  | _, '=' :: _ => some (.assign nonempty word)
  | _, '+' :: _ => some (.replacement nonempty word)
  | _, '?' :: _ => some (.required nonempty word)
  | false, '#' :: '#' :: pattern => some (.cut false true (String.ofList pattern))
  | false, '#' :: pattern => some (.cut false false (String.ofList pattern))
  | false, '%' :: '%' :: pattern => some (.cut true true (String.ofList pattern))
  | false, '%' :: pattern => some (.cut true false (String.ofList pattern))
  | _, _ => none

/-- The name of the parameter at the start of a text, and what follows it. -/
def name? : List Char → Option (String × List Char)
  | [] => none
  | c :: rest =>
    if isNameStart c then
      let (tail, after) := rest.span isNameChar
      some (String.ofList (c :: tail), after)
    else if c.isDigit then
      let (tail, after) := rest.span Char.isDigit
      some (String.ofList (c :: tail), after)
    else if isSpecial c then some (c.toString, rest)
    else none

/-- The parameter that the text between braces writes. -/
def braced? (body : List Char) (quoted : Bool) : Option Part :=
  match body with
  | '#' :: rest@(_ :: _) =>
    match name? rest with
    | some (name, []) => some (.parameter name .length quoted)
    | _ => (change? rest).map fun change => .parameter "#" change quoted
  | _ => do
    let (name, rest) ← name? body
    return .parameter name (← change? rest) quoted

/-- The part after a dollar sign, and what follows it. -/
def dollar (quoted : Bool) (text : List Char) : Except Problem (Part × List Char) :=
  match text with
  | '(' :: '(' :: rest => do
    let (body, after) ← balanced '(' ')' (rest.length + 1) 0 none rest
    match after with
    | ')' :: after => return (.arithmetic (String.ofList body) quoted, after)
    | [] => throw .incomplete
    | _ =>
      let rest := '(' :: rest
      let (body, after) ← balanced '(' ')' (rest.length + 1) 0 none rest
      return (.output (String.ofList body) quoted, after)
  | '(' :: rest => do
    let (body, after) ← balanced '(' ')' (rest.length + 1) 0 none rest
    return (.output (String.ofList body) quoted, after)
  | '\x7b' :: rest => do
    let (body, after) ← balanced openBrace closeBrace (rest.length + 1) 0 none rest
    match braced? body quoted with
    | some part => return (part, after)
    | none => throw .malformed
  | c :: rest =>
    if c.isDigit then return (.parameter c.toString .plain quoted, rest)
    else
      match name? text with
      | some (name, after) => return (.parameter name .plain quoted, after)
      | none => return (.text "$" quoted, text)
  | [] => return (.text "$" quoted, [])

/-- A part before the parts that follow it. -/
def before (part : Part) (result : Except Problem (Word × List Char)) :
    Except Problem (Word × List Char) :=
  result.map fun (parts, rest) => (part :: parts, rest)

/-- Where parts of a word stand. -/
inductive Place where
  /-- In a word of a command, which ends at a character that ends words. -/
  | command
  /-- In double quotes, up to the closing one. -/
  | quotes
  /-- In a text that is nested in a word, inside double quotes or not. -/
  | nested (inQuotes : Bool)
  /-- In a document, where quotes stand for themselves. -/
  | document
  deriving DecidableEq, Repr

namespace Place

/-- Whether the text counts as quoted. -/
def isQuoted : Place → Bool
  | .quotes | .nested true | .document => true
  | _ => false

/-- Whether the text is one word from end to end. -/
def isWhole : Place → Bool
  | .nested _ | .document => true
  | _ => false

/-- Whether a double quote is none. -/
def hasQuotes (place : Place) : Bool := place ≠ .document

/-- Whether a backslash in quoted text protects a character. -/
def protects (place : Place) (c : Char) : Bool :=
  c = '$' || c = backquote || c = '\\' || (c = '"' && place.hasQuotes)

end Place

/-- Scans parts. -/
def parts (place : Place) : Nat → List Char → Except Problem (Word × List Char)
  | 0, _ => .error .incomplete
  | _ + 1, [] => if place = .quotes then .error .incomplete else .ok ([], [])
  | fuel + 1, c :: rest =>
    let plain (text : List Char) (quoted : Bool) (after : List Char) :=
      before (.text (String.ofList text) quoted) (parts place fuel after)
    if c = '\\' then
      match rest with
      | [] => if place.isWhole then plain ['\\'] true [] else .error .incomplete
      | '\n' :: after => parts place fuel after
      | d :: after =>
        if place.isQuoted ∧ !place.protects d then plain ['\\', d] true after
        else plain [d] true after
    else if c = '$' then do
      let (part, after) ← dollar place.isQuoted rest
      before part (parts place fuel after)
    else if c = backquote then do
      let (body, after) ← backquoted place.isQuoted rest
      before (.output (String.ofList body) place.isQuoted) (parts place fuel after)
    else if place.isQuoted then
      if c = '"' ∧ place = .quotes then .ok ([], rest)
      else if c = '"' ∧ place.hasQuotes then parts place fuel rest
      else
        let (body, after) := rest.span fun d =>
          d ≠ '\\' && d ≠ '$' && d ≠ backquote && d ≠ '"'
        plain (c :: body) true after
    else if c = '"' then do
      let (body, after) ← parts .quotes fuel rest
      let body := if body.isEmpty then [.text "" true] else body
      (parts place fuel after).map fun (more, rest) => (body ++ more, rest)
    else if c = '\'' then do
      let (body, after) ← singleQuoted rest
      plain body true after
    else if !place.isWhole ∧ isMeta c then .ok ([], c :: rest)
    else
      let (body, after) := rest.span fun d =>
        d ≠ '\\' && d ≠ '$' && d ≠ backquote && d ≠ '"' && d ≠ '\'' &&
          (place.isWhole || !isMeta d)
      plain (c :: body) false after

/-- Scans the word at the start of a text, and gives what follows it. -/
def scan (text : List Char) : Except Problem (Word × List Char) :=
  parts .command (text.length + 1) text

/-- The parts of a text that is nested in a word, inside double quotes or
not. -/
def nested (inQuotes : Bool) (text : String) : Except Problem Word :=
  let chars := text.toList
  (parts (.nested inQuotes) (chars.length + 1) chars).map Prod.fst

/-- The parts of a document. -/
def ofDocument (text : List Char) : Except Problem Word :=
  (parts .document (text.length + 1) text).map Prod.fst

/-- Whether any part of a word is quoted. -/
def isQuoted (word : Word) : Bool :=
  word.any fun part => match part with
    | .text _ quoted => quoted
    | _ => false

/-- The characters of a word as it is written, without its quotes; only its
text counts. -/
def spelled (word : Word) : List Char :=
  word.flatMap fun part => match part with
    | .text text _ => text.toList
    | _ => []

/-- The text of a word that is nothing but unquoted text. -/
def bare? : Word → Option String
  | [.text text false] => some text
  | _ => none

/-- The name and the value of a word that assigns. -/
def assignment? : Word → Option (String × Word)
  | .text text false :: rest =>
    match text.toList.span (· ≠ '=') with
    | (c :: name, _ :: value) =>
      if isNameStart c ∧ name.all isNameChar then
        let first : Word := if value.isEmpty then [] else [.text (String.ofList value) false]
        some (String.ofList (c :: name), first ++ rest)
      else none
    | _ => none
  | _ => none

end Word

end LineScript.Shell
