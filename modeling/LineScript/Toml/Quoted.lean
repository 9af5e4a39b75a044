import LineScript.Toml.Scan

/-!
# Quoted strings

The four kinds of TOML string. Between double quotes a backslash begins an
escape; between single quotes every character stands for itself. Between three
quotes a string may run over several lines: a line end right after the opening
quotes is dropped, and one or two quotes may stand before the closing ones.
The document's carriage returns are known to stand before line feeds.
-/

namespace LineScript.Toml

namespace Quoted

/-- The value of a hexadecimal digit. -/
def hexDigit? (c : Char) : Option Nat :=
  if '0' ≤ c ∧ c ≤ '9' then some (c.toNat - '0'.toNat)
  else if 'a' ≤ c ∧ c ≤ 'f' then some (c.toNat - 'a'.toNat + 10)
  else if 'A' ≤ c ∧ c ≤ 'F' then some (c.toNat - 'A'.toNat + 10)
  else none

/-- The character of a code point; surrogates have none. -/
def charOf? (code : Nat) : Option Char :=
  if code.isValidChar then some (Char.ofNat code) else none

/-- What a letter after a backslash denotes. -/
def simpleEscape? : Char → Option Char
  | 'b' => some '\x08'
  | 't' => some '\t'
  | 'n' => some '\n'
  | 'f' => some '\x0c'
  | 'r' => some '\r'
  | 'e' => some '\x1b'
  | '"' => some '"'
  | '\\' => some '\\'
  | _ => none

/-- How many hexadecimal digits follow a letter after a backslash. -/
def escapeWidth? : Char → Option Nat
  | 'x' => some 2
  | 'u' => some 4
  | 'U' => some 8
  | _ => none

/-- Where the reading of a string with escapes stands. -/
inductive Mode where
  /-- Between characters. -/
  | plain
  /-- After a backslash. -/
  | escape
  /-- Inside a hexadecimal escape with so many digits to come. -/
  | hex (digits value : Nat)
  /-- After a backslash that ends a line; `true` once the line end was seen. -/
  | joining (broken : Bool)
  deriving DecidableEq

/-- Whether a character may stand for itself. -/
def isBody (multiline : Bool) (c : Char) : Bool :=
  isPrintable c || (multiline && (c = '\n' || c = '\r'))

/-- A string after its closing quotes: the quotes that belong to it, and what
follows. -/
def closing (quote : Char) : List Char → List Char × List Char
  | a :: b :: rest =>
    if a = quote then if b = quote then ([a, b], rest) else ([a], b :: rest)
    else ([], a :: b :: rest)
  | [a] => if a = quote then ([a], []) else ([], [a])
  | [] => ([], [])

/-- The end of a string at a quote, if it ends there: the quotes that still
belong to it, and what follows. -/
def ending? (multiline : Bool) (quote : Char) (rest : List Char) :
    Option (List Char × List Char) :=
  if multiline then
    match rest with
    | a :: b :: more => if a = quote ∧ b = quote then some (closing quote more) else none
    | _ => none
  else some ([], rest)

/-- A character before the rest of a string. -/
def cons (c : Char) (result : Option (List Char × List Char)) : Option (List Char × List Char) :=
  result.map fun (text, rest) => (c :: text, rest)

/-- Reads a string with escapes after its opening quotes. -/
def escaped (multiline : Bool) (mode : Mode) : List Char → Option (List Char × List Char)
  | [] => none
  | c :: rest =>
    match mode with
    | .escape =>
      match simpleEscape? c, escapeWidth? c with
      | some d, _ => cons d (escaped multiline .plain rest)
      | none, some width => escaped multiline (.hex width 0) rest
      | none, none =>
        if multiline && (isGap c || c = '\r') then escaped multiline (.joining false) rest
        else if multiline && c = '\n' then escaped multiline (.joining true) rest
        else none
    | .hex digits value =>
      match hexDigit? c with
      | none => none
      | some d =>
        let value := 16 * value + d
        if digits ≤ 1 then
          match charOf? value with
          | none => none
          | some x => cons x (escaped multiline .plain rest)
        else escaped multiline (.hex (digits - 1) value) rest
    | .joining false =>
      if isGap c || c = '\r' then escaped multiline (.joining false) rest
      else if c = '\n' then escaped multiline (.joining true) rest
      else none
    | mode =>
      if mode = .joining true ∧ (isGap c || c = '\r' || c = '\n') then
        escaped multiline mode rest
      else if c = '\\' then escaped multiline .escape rest
      else if c = '"' then
        match ending? multiline '"' rest with
        | some result => some result
        | none => cons c (escaped multiline .plain rest)
      else if isBody multiline c then cons c (escaped multiline .plain rest)
      else none

/-- Reads a string without escapes after its opening quotes. -/
def verbatim (multiline : Bool) : List Char → Option (List Char × List Char)
  | [] => none
  | c :: rest =>
    if c = '\'' then
      match ending? multiline '\'' rest with
      | some result => some result
      | none => cons c (verbatim multiline rest)
    else if isBody multiline c then cons c (verbatim multiline rest)
    else none

/-- Reads a string after its opening quotes. -/
def body (quote : Char) (multiline : Bool) : Scan String := fun text =>
  let result := if quote = '"' then escaped multiline .plain text else verbatim multiline text
  result.map fun (chars, rest) => (String.ofList chars, rest)

/-- Drops a line end that comes next. -/
def dropLineEnd : List Char → List Char
  | '\r' :: '\n' :: rest => rest
  | '\n' :: rest => rest
  | text => text

/-- Reads a string that stays on its line. -/
def line (quote : Char) : Scan String := do
  Scan.char quote
  body quote false

/-- Reads a string of either kind. -/
def scan (quote : Char) : Scan String := fun text =>
  match text with
  | a :: b :: c :: rest =>
    if a = quote ∧ b = quote ∧ c = quote then body quote true (dropLineEnd rest)
    else line quote text
  | _ => line quote text

/-- Two quotes may stand before the closing three. -/
example : (scan '"').whole? "\"\"\"a\"\"\"\"\"".toList = some "a\"\"" := by decide +kernel

end Quoted

end LineScript.Toml
