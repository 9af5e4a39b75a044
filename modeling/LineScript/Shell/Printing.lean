import LineScript.Shell.Arithmetic

/-!
# Printing arguments

How arguments are printed one after the other, where a backslash begins an
escape, and how they are printed in a given form, where a percent sign begins a
directive that takes the next argument. A form is used again as long as
arguments are left.
-/

namespace LineScript.Shell

namespace Printing

/-- What a letter after a backslash denotes. -/
def letter? : Char → Option Char
  | 'a' => some '\x07'
  | 'b' => some '\x08'
  | 'e' => some '\x1b'
  | 'f' => some '\x0c'
  | 'n' => some '\n'
  | 'r' => some '\r'
  | 't' => some '\t'
  | 'v' => some '\x0b'
  | '\\' => some '\\'
  | _ => none

/-- Whether a character is a digit of base eight. -/
def isOctal (c : Char) : Bool := '0' ≤ c && c ≤ '7'

/-- The byte that up to three digits of base eight write, and what follows. -/
def octal (text : List Char) : Char × List Char :=
  let digits := (text.take 3).takeWhile isOctal
  let value := digits.foldl (fun n c => 8 * n + (c.toNat - '0'.toNat)) 0
  (Char.ofNat (value % 256), text.drop digits.length)

/-- A character, or a text that was stopped. -/
structure Printed where
  /-- What is printed. -/
  text : List Char
  /-- Whether nothing more is to be printed. -/
  stopped : Bool := false

/-- Text before what is printed. -/
def Printed.after (start : List Char) (p : Printed) : Printed := { p with text := start ++ p.text }

/-- A text with its escapes, of at most so many characters. Digits may follow a
zero, and a certain escape stops all printing. -/
def unescapeUpTo : Nat → List Char → Printed
  | 0, _ | _, [] => ⟨[], false⟩
  | _ + 1, ['\\'] => ⟨['\\'], false⟩
  | fuel + 1, '\\' :: c :: rest =>
    if c = 'c' then ⟨[], true⟩
    else
      let digits := match c, rest with
        | '0', d :: _ => if isOctal d then rest else c :: rest
        | _, _ => c :: rest
      if isOctal c then
        let (byte, after) := octal digits
        (unescapeUpTo fuel after).after [byte]
      else
        match letter? c with
        | some d => (unescapeUpTo fuel rest).after [d]
        | none => (unescapeUpTo fuel (c :: rest)).after ['\\']
  | fuel + 1, c :: rest => (unescapeUpTo fuel rest).after [c]

/-- A text with its escapes. -/
def unescape (text : String) : Printed := unescapeUpTo text.length text.toList

/-- Arguments with blanks between them and a line end after them, unless the
first argument asks for none. -/
def echo (arguments : List String) : String :=
  let (arguments, ending) := match arguments with
    | "-n" :: rest => (rest, [])
    | _ => (arguments, ['\n'])
  let printed := unescape (" ".intercalate arguments)
  String.ofList (if printed.stopped then printed.text else printed.text ++ ending)

/-- A directive of a form. -/
structure Directive where
  /-- The flags before the width. -/
  flags : List Char
  /-- The least number of characters. -/
  width : Nat
  /-- The least number of digits, or the greatest of characters. -/
  precision : Option Nat
  /-- What is printed. -/
  kind : Char

/-- A number given as a text: a number, or the first character after a quote.
What cannot be read counts as zero, and that it could not be read is told. -/
def numberOf (text : String) : Int × Bool :=
  match text.toList with
  | [] => (0, true)
  | '\'' :: c :: _ | '"' :: c :: _ => (c.toNat, true)
  | _ =>
    match Calculation.integer? text with
    | some n => (n, true)
    | none => (0, false)

/-- A text filled up to the width of a directive. -/
def pad (d : Directive) (text : List Char) : List Char :=
  let fill := List.replicate (d.width - text.length) ' '
  if d.flags.contains '-' then text ++ fill else fill ++ text

/-- The digits of a number in a base. -/
def digits (kind : Char) (n : Nat) : List Char :=
  let base := if kind = 'o' then 8 else if kind = 'x' ∨ kind = 'X' then 16 else 10
  let all := Nat.toDigits base n
  if kind = 'X' then all.map Char.toUpper else all

/-- A number as a directive prints it. -/
def number (d : Directive) (n : Int) : List Char :=
  let signed := d.kind = 'd' ∨ d.kind = 'i'
  let size := if signed then n.natAbs else Calculation.bits n
  let sign :=
    if !signed then []
    else if n < 0 then ['-']
    else if d.flags.contains '+' then ['+']
    else if d.flags.contains ' ' then [' ']
    else []
  let mark :=
    if d.flags.contains '#' then
      if d.kind = 'x' then ['0', 'x'] else if d.kind = 'X' then ['0', 'X']
      else if d.kind = 'o' then ['0'] else []
    else []
  let body := digits d.kind size
  let zeros := match d.precision with
    | some least => least - body.length
    | none =>
      if d.flags.contains '0' ∧ !d.flags.contains '-' then
        d.width - body.length - sign.length - mark.length
      else 0
  pad d (sign ++ mark ++ List.replicate zeros '0' ++ body)

/-- The state of printing in a form. -/
structure Progress where
  /-- What was printed, the last character first. -/
  printed : List Char := []
  /-- The arguments that are left. -/
  arguments : List String
  /-- Whether an argument was asked for. -/
  asked : Bool := false
  /-- Whether all numbers could be read. -/
  good : Bool := true
  /-- Whether nothing more is to be printed. -/
  stopped : Bool := false

/-- Prints characters. -/
def Progress.put (p : Progress) (text : List Char) : Progress :=
  { p with printed := text.reverse ++ p.printed }

/-- Takes the next argument, or nothing if there is none. -/
def Progress.next (p : Progress) : String × Progress :=
  (p.arguments.headD "", { p with arguments := p.arguments.tail, asked := true })

/-- A number at the start of a form, or an argument in its place. -/
def measure (text : List Char) (p : Progress) : Option Nat × List Char × Progress :=
  match text with
  | '*' :: rest =>
    let (argument, p) := p.next
    (some (numberOf argument).1.toNat, rest, p)
  | _ =>
    let (digits, rest) := text.span Char.isDigit
    (if digits.isEmpty then none
     else some (digits.foldl (fun n c => 10 * n + (c.toNat - '0'.toNat)) 0), rest, p)

/-- Prints what a directive asks for. -/
def perform (d : Directive) (p : Progress) : Progress :=
  if d.kind = '%' then p.put ['%']
  else
    let (argument, p) := p.next
    let cut (text : List Char) := match d.precision with
      | some most => text.take most
      | none => text
    match d.kind with
    | 's' => p.put (pad d (cut argument.toList))
    | 'c' => p.put (pad d (argument.toList.take 1))
    | 'b' =>
      let printed := unescape argument
      { p.put (pad d (cut printed.text)) with stopped := printed.stopped }
    | _ =>
      let (n, good) := numberOf argument
      { p.put (number d n) with good := p.good && good }

/-- The kinds of directives. -/
def kinds : List Char := ['d', 'i', 'o', 'u', 'x', 'X', 's', 'c', 'b', '%']

/-- Prints by a form of at most so many characters once. -/
def once : Nat → List Char → Progress → Progress
  | 0, _, p | _, [], p => p
  | fuel + 1, c :: rest, p =>
    if p.stopped then p
    else if c = '\\' then
      match rest with
      | [] => p.put ['\\']
      | d :: after =>
        if isOctal d then
          let (byte, after) := octal rest
          once fuel after (p.put [byte])
        else
          match letter? d with
          | some e => once fuel after (p.put [e])
          | none => once fuel rest (p.put ['\\'])
    else if c = '%' then
      let (flags, rest) := rest.span fun f => "#-+ 0".toList.contains f
      let (width, rest, p) := measure rest p
      let (precision, rest, p) := match rest with
        | '.' :: more =>
          let (n, rest, p) := measure more p
          (some (n.getD 0), rest, p)
        | _ => (none, rest, p)
      match rest with
      | [] => { p with good := false, stopped := true }
      | kind :: after =>
        if kinds.contains kind then
          once fuel after (perform ⟨flags, width.getD 0, precision, kind⟩ p)
        else { p with good := false, stopped := true }
    else once fuel rest (p.put [c])

/-- Prints by a form as often as needed, but at most so often. -/
def repeatedly (form : List Char) : Nat → Progress → Progress
  | 0, p => p
  | fuel + 1, p =>
    let p := once form.length form { p with asked := false }
    if p.stopped || !p.asked || p.arguments.isEmpty then p else repeatedly form fuel p

/-- What arguments are printed as in a form, and whether all went well. -/
def formatted (form : String) (arguments : List String) : String × Bool :=
  let p := repeatedly form.toList (arguments.length + 1) { arguments }
  (String.ofList p.printed.reverse, p.good)

/-- A form is used again for the arguments that are left. -/
example : (formatted "%03d\\n" ["7", "-1"]).1 = "007\n-01\n" := by decide +kernel

end Printing

end LineScript.Shell
