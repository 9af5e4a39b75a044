/-!
# Binary64 by exact arithmetic

The finite binary64 values that are not negative, as natural numbers: every
one of them is a whole number of units of `2 ^ -1074`. A fraction is rounded to
the nearest value, of two equally near ones to the one with the even mantissa.
No bound is put on the exponent; a caller that has a largest value compares
with it. Signs, infinities and NaN are not represented here.
-/

namespace LineScript

/-- The quotient rounded to the nearest whole number, a half to the even
neighbour. -/
def divNearest (num den : Nat) : Nat :=
  let quotient := num / den
  let rest := num % den
  if 2 * rest < den then quotient
  else if den < 2 * rest then quotient + 1
  else if quotient % 2 = 0 then quotient
  else quotient + 1

/-- A finite binary64 value that is not negative: `mantissa * 2 ^ scale` units
of `2 ^ -1074`. -/
structure Binary64 where
  /-- Below `2 ^ 53`, and at least `2 ^ 52` unless the scale is zero. -/
  mantissa : Nat
  /-- Zero for the subnormal values and for the least normal ones. -/
  scale : Nat
  deriving DecidableEq, Repr

namespace Binary64

/-- The number of units in one. -/
def one : Nat := Nat.pow 2 1074

/-- The value in units. -/
def units (x : Binary64) : Nat := x.mantissa * Nat.pow 2 x.scale

/-- A rounded mantissa that has reached `2 ^ 53` moves to the next scale. -/
def normalize (mantissa scale : Nat) : Binary64 :=
  if mantissa = Nat.pow 2 53 then ⟨Nat.pow 2 52, scale + 1⟩ else ⟨mantissa, scale⟩

/-- The value nearest to the fraction `num / den`. -/
def nearest (num den : Nat) : Binary64 :=
  let scaled := num * one
  let scale := (scaled / den).log2 - 52
  normalize (divNearest scaled (den * Nat.pow 2 scale)) scale

/-- The value nearest to the sum of two values. -/
def add (x y : Binary64) : Binary64 := nearest (x.units + y.units) one

/-- Moving to the next scale keeps the value. -/
theorem units_normalize (mantissa scale : Nat) :
    (normalize mantissa scale).units = mantissa * Nat.pow 2 scale := by
  unfold normalize
  split
  · next h =>
    have step : Nat.pow 2 (scale + 1) = Nat.pow 2 scale * 2 := rfl
    simp only [units, h, step]
    rw [Nat.mul_left_comm, Nat.mul_comm]
  · rfl

/-- One half lies on the grid. -/
example : (nearest 1 2).units * 2 = one := by decide +kernel

end Binary64

end LineScript
