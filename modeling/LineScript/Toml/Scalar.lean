import LineScript.Number.Literal
import LineScript.Toml.Scan

/-!
# Unquoted values

Booleans, integers, floating-point numbers, dates and times. Digits may be
grouped with underscores, each between two digits. A number in base ten has no
leading zero; the other bases have a lower-case mark and no sign. The parts of
a date or a time have a fixed width and must be in range; only seconds and
their fraction may be missing.
-/

namespace LineScript.Toml

/-- An unquoted value. Of a date or time nothing but its form matters. -/
inductive Scalar where
  /-- A truth value. -/
  | boolean (value : Bool)
  /-- A whole number. -/
  | integer (value : Int)
  /-- A floating-point number. -/
  | number (value : Literal)
  /-- A date, a time, or both. -/
  | moment
  deriving DecidableEq, Repr

namespace Scalar

/-- The characters of unquoted values. -/
def isBody (c : Char) : Bool :=
  c.isAlphanum || c = '_' || c = '+' || c = '-' || c = '.' || c = ':'

/-- The value of a digit of a base up to sixteen. -/
def digit? (base : Nat) (c : Char) : Option Nat :=
  let value :=
    if '0' ≤ c ∧ c ≤ '9' then c.toNat - '0'.toNat
    else if 'a' ≤ c ∧ c ≤ 'f' then c.toNat - 'a'.toNat + 10
    else if 'A' ≤ c ∧ c ≤ 'F' then c.toNat - 'A'.toNat + 10
    else base
  if value < base then some value else none

/-- The digits of a text in which each underscore stands between two digits. -/
def digits? (base : Nat) (text : List Char) : Option (List Char) :=
  let groups := text.splitOnP (· = '_')
  if groups.all fun group => group ≠ [] && group.all fun c => (digit? base c).isSome then
    some groups.flatten
  else none

/-- The number that digits write. -/
def natOf (base : Nat) (digits : List Char) : Nat :=
  digits.foldl (fun n c => base * n + (digit? base c).getD 0) 0

/-- A number in base ten without a leading zero. -/
def decimal? (text : List Char) : Option (List Char) := do
  let digits ← digits? 10 text
  if digits.head? = some '0' ∧ digits.length ≠ 1 then none else some digits

/-- A sign, if there is one, and what follows. -/
def spanSign : List Char → Option Char × List Char
  | '+' :: rest => (some '+', rest)
  | '-' :: rest => (some '-', rest)
  | text => (none, text)

/-- Reads an integer. -/
def integer? : List Char → Option Int
  | '0' :: 'x' :: rest => (digits? 16 rest).map fun digits => natOf 16 digits
  | '0' :: 'o' :: rest => (digits? 8 rest).map fun digits => natOf 8 digits
  | '0' :: 'b' :: rest => (digits? 2 rest).map fun digits => natOf 2 digits
  | text =>
    let (sign, rest) := spanSign text
    (decimal? rest).map fun digits =>
      let size : Int := natOf 10 digits
      if sign = some '-' then -size else size

/-- The characters of a group of digits. -/
def isDigits (c : Char) : Bool := c.isDigit || c = '_'

/-- The digits after a point, if a point comes next. -/
def fraction? (text : List Char) : Option (List Char × List Char) :=
  match text with
  | '.' :: rest =>
    let (group, rest) := rest.span isDigits
    (digits? 10 group).map fun digits => (digits, rest)
  | _ => some ([], text)

/-- The exponent that ends a number, if there is one. -/
def exponent? : List Char → Option Int
  | [] => some 0
  | c :: rest =>
    if c = 'e' ∨ c = 'E' then
      let (sign, rest) := spanSign rest
      (digits? 10 rest).map fun digits =>
        let size : Int := natOf 10 digits
        if sign = some '-' then -size else size
    else none

/-- Reads a floating-point number. -/
def number? (text : List Char) : Option Literal := do
  let (sign, rest) := spanSign text
  let negative := sign = some '-'
  if rest = "inf".toList then return .infinite negative
  if rest = "nan".toList then return .notANumber
  let (group, rest) := rest.span isDigits
  let whole ← decimal? group
  let (fraction, rest) ← fraction? rest
  let exponent ← exponent? rest
  return .finite negative (natOf 10 (whole ++ fraction)) (exponent - fraction.length)

/-- Takes a number of exactly so many digits. -/
def fixed : Nat → Nat → Scan Nat
  | 0, value => return value
  | width + 1, value => do
    let c ← Scan.anyChar
    match digit? 10 c with
    | none => Scan.refuse
    | some d => fixed width (10 * value + d)

/-- Takes two digits that write a number in a range. -/
def two (low high : Nat) : Scan Nat := do
  let value ← fixed 2 0
  if low ≤ value ∧ value ≤ high then return value else Scan.refuse

/-- Whether a year has a 29th of February. -/
def isLeapYear (year : Nat) : Bool := year % 4 = 0 && (year % 100 ≠ 0 || year % 400 = 0)

/-- The days of a month. -/
def daysIn (year month : Nat) : Nat :=
  if month = 2 then if isLeapYear year then 29 else 28
  else if month = 4 ∨ month = 6 ∨ month = 9 ∨ month = 11 then 30
  else 31

/-- Takes a date. -/
def date : Scan Unit := do
  let year ← fixed 4 0
  Scan.char '-'
  let month ← two 1 12
  Scan.char '-'
  let _ ← two 1 (daysIn year month)

/-- Takes a time of day; a minute may end with a leap second. -/
def time : Scan Unit := do
  let _ ← two 0 23
  Scan.char ':'
  let _ ← two 0 59
  if ← Scan.takeChar ':' then
    let _ ← two 0 60
    if ← Scan.takeChar '.' then
      let fraction ← Scan.takeWhile Char.isDigit
      if fraction = [] then Scan.refuse

/-- Takes an offset from universal time, if there is one. -/
def offset : Scan Unit := do
  match ← Scan.next? with
  | some 'Z' | some 'z' => let _ ← Scan.anyChar
  | some '+' | some '-' =>
    let _ ← Scan.anyChar
    let _ ← two 0 23
    Scan.char ':'
    let _ ← two 0 59
  | _ => return

/-- Takes a date with or without a time. -/
def dateTime : Scan Unit := do
  date
  match ← Scan.next? with
  | none => return
  | some c =>
    let _ ← Scan.anyChar
    if c = 'T' ∨ c = 't' ∨ c = ' ' then
      time
      offset
    else Scan.refuse

/-- Whether a text is a date, a time, or both. -/
def isMoment (text : List Char) : Bool :=
  (Scan.whole? dateTime text).isSome || (Scan.whole? time text).isSome

/-- Reads an unquoted value. -/
def ofText? (text : List Char) : Option Scalar :=
  if text = "true".toList then some (.boolean true)
  else if text = "false".toList then some (.boolean false)
  else if isMoment text then some .moment
  else
    match integer? text with
    | some value => some (.integer value)
    | none => (number? text).map .number

/-- Takes an unquoted value. A date may be parted from its time by a space. -/
def scan : Scan Scalar := fun text =>
  let (word, rest) := text.span isBody
  let (word, rest) :=
    match rest with
    | ' ' :: c :: more =>
      if (Scan.whole? date word).isSome && c.isDigit then
        let (second, rest) := (c :: more).span isBody
        (word ++ ' ' :: second, rest)
      else (word, rest)
    | _ => (word, rest)
  (ofText? word).map fun scalar => (scalar, rest)

/-- A leap day needs a leap year. -/
example : isMoment "2024-02-29".toList = true ∧ isMoment "2023-02-29".toList = false := by
  decide +kernel

end Scalar

end LineScript.Toml
