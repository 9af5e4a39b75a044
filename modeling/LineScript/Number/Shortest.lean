import LineScript.Number.Binary64

/-!
# Shortest decimals

The decimal that stands for a binary64 value has the fewest digits that read
back as that value, and of those the nearest to it; of two equally near ones
the larger is taken. A layout says how the digits are set out: which magnitudes
are written with an exponent, and whether a whole number carries `.0`.
-/

namespace LineScript

/-- The number `digits * 10 ^ exponent`. -/
structure Decimal where
  /-- All digits, as one whole number. -/
  digits : Nat
  /-- The power of ten of the last digit. -/
  exponent : Int
  deriving DecidableEq, Repr

namespace Binary64

/-- The number of decimal digits of a whole number. -/
def digitCount (n : Nat) : Nat := (Nat.toDigits 10 n).length

/-- A power of ten that turns every decimal with seventeen digits near a
binary64 value into a whole number. -/
def wide : Nat := Nat.pow 10 360

/-- The decimals of one grid that read back as a value, from four whole numbers
in a common unit: the grid's step, the value, and the ends of the interval of
numbers that round to the value. The nearest comes out. -/
def onGrid? (step value low high : Nat) (closed : Bool) : Option Nat :=
  let inside (n : Nat) : Bool :=
    if closed then low ≤ n * step && n * step ≤ high else low < n * step && n * step < high
  let below := value / step
  match inside below, inside (below + 1) with
  | true, true =>
    some (if (below + 1) * step - value ≤ value - below * step then below + 1 else below)
  | true, false => some below
  | false, true => some (below + 1)
  | false, false => none

/-- A decimal of `count` digits, or the power of ten after all of them. -/
def decimalOf (digits count : Nat) (exponent : Int) : Decimal :=
  if digits = Nat.pow 10 count then ⟨Nat.pow 10 (count - 1), exponent + 1⟩ else ⟨digits, exponent⟩

/-- Tries grids of more and more digits, `left` of them. -/
def searchGrids (value low high place : Nat) (closed : Bool) : Nat → Nat → Option Decimal
  | 0, _ => none
  | left + 1, count =>
    match onGrid? (4 * one * Nat.pow 10 (place - count)) value low high closed with
    | some digits => some (decimalOf digits count ((place : Int) - count - 360))
    | none => searchGrids value low high place closed left (count + 1)

/-- The shortest decimal that reads back as the value. -/
def shortest (x : Binary64) : Decimal :=
  if x.mantissa = 0 then ⟨0, 0⟩
  else
    let value := 4 * x.units * wide
    let half := 2 * Nat.pow 2 x.scale * wide
    let below := if x.mantissa = Nat.pow 2 52 ∧ 0 < x.scale then half / 2 else half
    let place := digitCount (x.units * wide / one)
    (searchGrids value (value - below) (value + half) place (x.mantissa % 2 == 0) 17 1).getD
      ⟨0, 0⟩

end Binary64

namespace Decimal

/-- How a decimal is set out as text. -/
structure Layout where
  /-- Whether a whole number written without exponent ends in `.0`. -/
  wholeMark : Bool
  /-- The places of the first digit, counted from the point, that are written
  without an exponent: 1 is the ones place, 0 the first place after the point.
  `none` writes no exponent at all. -/
  positional : Option (Int × Int)

/-- The digits as text. -/
def text (d : Decimal) : List Char := Nat.toDigits 10 d.digits

/-- The place of the first digit, counted from the point. -/
def place (d : Decimal) : Int := d.text.length + d.exponent

/-- The digits around a point, without exponent. -/
def positionalText (d : Decimal) (wholeMark : Bool) : List Char :=
  if 0 ≤ d.exponent then
    d.text ++ List.replicate d.exponent.toNat '0' ++ (if wholeMark then ['.', '0'] else [])
  else if 0 < d.place then
    d.text.take d.place.toNat ++ '.' :: d.text.drop d.place.toNat
  else ['0', '.'] ++ List.replicate (-d.place).toNat '0' ++ d.text

/-- The first digit, the others after a point, and the exponent. -/
def scientificText (d : Decimal) : List Char :=
  let fraction := d.text.drop 1
  d.text.take 1 ++ (if fraction = [] then [] else '.' :: fraction) ++
    'e' :: (toString (d.place - 1)).toList

/-- The text of a decimal in a layout. -/
def render (layout : Layout) (d : Decimal) : String :=
  let inPlace :=
    match layout.positional with
    | none => true
    | some (least, greatest) => d.digits = 0 || (least ≤ d.place && d.place ≤ greatest)
  String.ofList (if inPlace then d.positionalText layout.wholeMark else d.scientificText)

end Decimal

end LineScript
