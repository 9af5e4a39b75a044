import LineScript.Number.Binary64

/-!
# Number literals

A literal is an optional sign followed by digits with at most one point and an
optional decimal exponent, or by one of the words for infinity and for "not a
number" in any mix of cases. The value of a finite literal is the exact
fraction that its digits denote.
-/

namespace LineScript

/-- A number as it is written. -/
inductive Literal where
  /-- `digits * 10 ^ exponent`, after a minus sign if `negative`. -/
  | finite (negative : Bool) (digits : Nat) (exponent : Int)
  /-- An infinity. -/
  | infinite (negative : Bool)
  /-- The word for "not a number". -/
  | notANumber
  deriving DecidableEq, Repr

namespace Literal

/-- The value of a decimal digit. -/
def digit? (c : Char) : Option Nat :=
  if '0' ≤ c ∧ c ≤ '9' then some (c.toNat - '0'.toNat) else none

/-- The number written by digits, continuing from `acc`. -/
def natOf (acc : Nat) (digits : List Char) : Nat :=
  digits.foldl (fun n c => 10 * n + (c.toNat - '0'.toNat)) acc

/-- The leading digits of a text, and what follows them. -/
def spanDigits (text : List Char) : List Char × List Char :=
  text.span fun c => (digit? c).isSome

/-- A leading sign, if there is one (`true` for minus), and what follows. -/
def spanSign : List Char → Bool × List Char
  | '-' :: rest => (true, rest)
  | '+' :: rest => (false, rest)
  | text => (false, text)

/-- The exponent that ends a literal: nothing, or `e`, an optional sign and at
least one digit. -/
def exponent? : List Char → Option Int
  | [] => some 0
  | c :: rest =>
    if c = 'e' ∨ c = 'E' then
      let (negative, rest) := spanSign rest
      let (digits, rest) := spanDigits rest
      if digits = [] ∨ rest ≠ [] then none
      else
        let size : Int := natOf 0 digits
        some (if negative then -size else size)
    else none

/-- The digits after a point, if the text begins with one. -/
def spanFraction : List Char → List Char × List Char
  | '.' :: rest => spanDigits rest
  | text => ([], text)

/-- Reads an unsigned finite literal: its digits and its exponent. -/
def unsigned? (text : List Char) : Option (Nat × Int) :=
  let (whole, rest) := spanDigits text
  let (fraction, rest) := spanFraction rest
  if whole = [] ∧ fraction = [] then none
  else
    (exponent? rest).map fun exponent =>
      (natOf 0 (whole ++ fraction), exponent - fraction.length)

/-- Whether a text is a word, whatever the case of its ASCII letters. -/
def isWord (word : String) (text : List Char) : Bool := text.map Char.toLower = word.toList

/-- Reads a literal; the whole text must be one. -/
def parse? (text : List Char) : Option Literal :=
  let (negative, rest) := spanSign text
  if isWord "inf" rest || isWord "infinity" rest then some (.infinite negative)
  else if isWord "nan" rest then some .notANumber
  else (unsigned? rest).map fun (digits, exponent) => .finite negative digits exponent

/-- The binary64 value nearest to `digits * 10 ^ exponent`; `none` when the
exponent alone puts it beyond every finite value. An exponent so small that the
value rounds to zero is not expanded. -/
def nearest? (digits : Nat) (exponent : Int) : Option Binary64 :=
  if digits = 0 ∨ exponent + digits.log2 < -400 then some ⟨0, 0⟩
  else if 400 < exponent then none
  else if 0 ≤ exponent then some (.nearest (digits * Nat.pow 10 exponent.toNat) 1)
  else some (.nearest digits (Nat.pow 10 (-exponent).toNat))

/-- A point needs a digit on one side only. -/
example : parse? ['.', '5'] = some (.finite false 5 (-1)) ∧ parse? ['.'] = none := by decide

end Literal

end LineScript
