import Mathlib.Algebra.Order.Field.Basic
import Mathlib.Algebra.Order.Field.Rat
import Mathlib.Data.Nat.Dist
import Mathlib.Tactic.FieldSimp
import Mathlib.Tactic.Linarith
import Mathlib.Tactic.NormNum
import Mathlib.Tactic.Positivity
import Mathlib.Tactic.Ring
import LineScript.Number.Binary64

/-!
# The nearest binary64 value

What it means for a binary64 value to be the nearest one to a fraction, of two equally near
ones that with the even mantissa, and that there is always exactly one. The values of one
scale lie on a grid, and only values below the least normal mantissa of a scale lie off it.
Main result: rounding a fraction gives the nearest value, and bounding the exponent makes no
difference for a value that is far enough below the bound.
-/

namespace LineScript

/-- Whether a whole number is the nearest one to `num / den`, or the even one of two that are
equally near. -/
structure IsRounded (num den n : Nat) : Prop where
  /-- It is at most half a unit too small. -/
  above : 2 * num ≤ 2 * (n * den) + den
  /-- It is at most half a unit too large. -/
  below : 2 * (n * den) ≤ 2 * num + den
  /-- It is even where it is half a unit off. -/
  even : 2 * num = 2 * (n * den) + den ∨ 2 * (n * den) = 2 * num + den → n % 2 = 0

/-- A quotient is rounded. -/
theorem divNearest_isRounded (num : Nat) {den : Nat} (h : 0 < den) :
    IsRounded num den (divNearest num den) := by
  have hdivision : num = num / den * den + num % den := by
    rw [Nat.mul_comm]
    exact (Nat.div_add_mod num den).symm
  have hrest : num % den < den := Nat.mod_lt num h
  have hnext : (num / den + 1) * den = num / den * den + den := Nat.succ_mul _ _
  simp only [divNearest]
  split_ifs with hless hmore heven
  · exact ⟨by omega, by omega, by omega⟩
  · exact ⟨by omega, by omega, by omega⟩
  · exact ⟨by omega, by omega, fun _ => heven⟩
  · exact ⟨by omega, by omega, by omega⟩

namespace IsRounded

variable {num den n : Nat}

/-- Multiples of a unit are a unit apart. -/
theorem mul_add_le {k l : Nat} (h : k < l) (den : Nat) : k * den + den ≤ l * den := by
  rw [← Nat.succ_mul]
  exact Nat.mul_le_mul_right den h

/-- What is rounded is not below a whole number that is not above the fraction. -/
theorem le_of_mul_le (h : IsRounded num den n) (hden : 0 < den) {k : Nat} (hk : k * den ≤ num) :
    k ≤ n := by
  by_contra hlt
  have hstep := mul_add_le (Nat.lt_of_not_le hlt) den
  have habove := h.above
  omega

/-- What is rounded is not above a whole number that is not below the fraction. -/
theorem le_of_le_mul (h : IsRounded num den n) (hden : 0 < den) {k : Nat} (hk : num ≤ k * den) :
    n ≤ k := by
  by_contra hlt
  have hstep := mul_add_le (Nat.lt_of_not_le hlt) den
  have hbelow := h.below
  omega

/-- No multiple of the unit is nearer, and another one that is as near makes the rounded number
even. -/
theorem near (h : IsRounded num den n) (k : Nat) :
    Nat.dist num (n * den) ≤ Nat.dist num (k * den) ∧
      (Nat.dist num (k * den) = Nat.dist num (n * den) → k = n ∨ n % 2 = 0) := by
  obtain ⟨habove, hbelow, heven⟩ := h
  unfold Nat.dist
  rcases Nat.lt_trichotomy k n with hlt | rfl | hlt
  · have hstep := mul_add_le hlt den
    exact ⟨by omega, fun _ => by omega⟩
  · exact ⟨le_rfl, fun _ => .inl rfl⟩
  · have hstep := mul_add_le hlt den
    exact ⟨by omega, fun _ => by omega⟩

end IsRounded

namespace Binary64

/-- The number that a value stands for. -/
def toRat (x : Binary64) : ℚ := x.units / one

/-- Whether a mantissa and a scale are those of a value, if there is no greatest exponent. -/
structure IsCanonical (x : Binary64) : Prop where
  /-- The mantissa has at most 53 binary digits. -/
  bounded : x.mantissa < 2 ^ 53
  /-- It has all of them, unless the scale is zero. -/
  normal : x.scale = 0 ∨ 2 ^ 52 ≤ x.mantissa

/-- Whether a mantissa and a scale are those of a value. -/
structure IsFinite (x : Binary64) : Prop extends IsCanonical x where
  /-- The exponent is at most the greatest one. -/
  scale_le : x.scale ≤ 2045

/-- Whether one of some values is nearest to a number, or has the even mantissa of two that are
equally near. -/
structure IsNearest (values : Binary64 → Prop) (q : ℚ) (x : Binary64) : Prop where
  /-- It is one of the values. -/
  mem : values x
  /-- No other one is nearer. -/
  near : ∀ y, values y → |q - x.toRat| ≤ |q - y.toRat|
  /-- Its mantissa is even if another one is as near. -/
  even : ∀ y, values y → |q - y.toRat| = |q - x.toRat| → y = x ∨ x.mantissa % 2 = 0

/-- There are units in one. -/
theorem one_pos : 0 < one := by decide +kernel

/-- The number of a value, in units. -/
theorem units_eq (x : Binary64) : x.units = x.mantissa * 2 ^ x.scale := rfl

/-- A value has no units just if its mantissa is zero. -/
theorem units_eq_zero_iff {x : Binary64} : x.units = 0 ↔ x.mantissa = 0 := by
  rw [units_eq, Nat.mul_eq_zero, or_iff_left (Nat.two_pow_pos x.scale).ne']

/-- A value is zero just if its mantissa is. -/
theorem toRat_eq_zero_iff {x : Binary64} : x.toRat = 0 ↔ x.mantissa = 0 := by
  have hone : (one : ℚ) ≠ 0 := Nat.cast_ne_zero.mpr one_pos.ne'
  rw [toRat, div_eq_zero_iff, or_iff_left hone, Nat.cast_eq_zero, units_eq_zero_iff]

/-- Values are ordered like their units. -/
theorem toRat_lt_toRat {x y : Binary64} : x.toRat < y.toRat ↔ x.units < y.units := by
  have hone : (0 : ℚ) < one := Nat.cast_pos.mpr one_pos
  rw [toRat, toRat, div_lt_div_iff_of_pos_right hone, Nat.cast_lt]

/-- A value is below a whole number just if its units are. -/
theorem toRat_lt_natCast {x : Binary64} {n : Nat} : x.toRat < n ↔ x.units < n * one := by
  have hone : (0 : ℚ) < one := Nat.cast_pos.mpr one_pos
  rw [toRat, div_lt_iff₀ hone, ← Nat.cast_mul, Nat.cast_lt]

/-- How far a fraction is from a value, in parts of a unit. -/
theorem abs_sub_toRat (num : Nat) {den : Nat} (h : 0 < den) (x : Binary64) :
    |(num : ℚ) / den - x.toRat| =
      (Nat.dist (num * one) (x.units * den) : ℚ) / ((den * one : Nat) : ℚ) := by
  have hden : (0 : ℚ) < den := Nat.cast_pos.mpr h
  have hone : (0 : ℚ) < one := Nat.cast_pos.mpr one_pos
  have hdist (a b : Nat) : (Nat.dist a b : ℚ) = |(a : ℚ) - b| := by
    rcases Nat.le_total a b with hle | hle
    · rw [Nat.dist_eq_sub_of_le hle, Nat.cast_sub hle, abs_sub_comm,
        abs_of_nonneg (sub_nonneg.mpr (Nat.cast_le.mpr hle))]
    · rw [Nat.dist_eq_sub_of_le_right hle, Nat.cast_sub hle,
        abs_of_nonneg (sub_nonneg.mpr (Nat.cast_le.mpr hle))]
  rw [hdist, Nat.cast_mul, Nat.cast_mul, Nat.cast_mul, toRat, div_sub_div _ _ hden.ne' hone.ne',
    abs_div, abs_of_pos (mul_pos hden hone), mul_comm (den : ℚ) (x.units : ℚ)]

namespace IsCanonical

variable {x y : Binary64}

/-- A value of a lower scale is the lower one. -/
theorem units_lt_of_scale (hx : x.IsCanonical) (hy : y.IsCanonical) (h : x.scale < y.scale) :
    x.units < y.units := by
  have hmantissa : 2 ^ 52 ≤ y.mantissa := hy.normal.resolve_left (by omega)
  calc x.units = x.mantissa * 2 ^ x.scale := rfl
    _ < 2 ^ 53 * 2 ^ x.scale := Nat.mul_lt_mul_of_pos_right hx.bounded (Nat.two_pow_pos _)
    _ = 2 ^ 52 * 2 ^ (x.scale + 1) := by ring
    _ ≤ y.mantissa * 2 ^ y.scale :=
      Nat.mul_le_mul hmantissa (Nat.pow_le_pow_right (by decide) h)
    _ = y.units := rfl

/-- There is one way to write a value. -/
theorem eq_of_units (hx : x.IsCanonical) (hy : y.IsCanonical) (h : x.units = y.units) :
    x = y := by
  obtain ⟨m, s⟩ := x
  obtain ⟨n, t⟩ := y
  rcases Nat.lt_trichotomy s t with hlt | rfl | hlt
  · exact absurd h (hx.units_lt_of_scale hy hlt).ne
  · have hmantissa : m = n := Nat.eq_of_mul_eq_mul_right (Nat.two_pow_pos s) h
    rw [hmantissa]
  · exact absurd h (hy.units_lt_of_scale hx hlt).ne'

/-- A value lies on the grid of a scale, or below the least mantissa of the scale. -/
theorem on_grid (hx : x.IsCanonical) (scale : Nat) :
    (∃ k, x.units = k * 2 ^ scale) ∨ 0 < scale ∧ x.units < 2 ^ 52 * 2 ^ scale := by
  rcases Nat.lt_or_ge x.scale scale with hlt | hle
  · have hleast : IsCanonical ⟨2 ^ 52, scale⟩ := ⟨by simp, .inr le_rfl⟩
    exact .inr ⟨Nat.zero_lt_of_lt hlt, hx.units_lt_of_scale hleast hlt⟩
  · refine .inl ⟨x.mantissa * 2 ^ (x.scale - scale), ?_⟩
    rw [units_eq, Nat.mul_assoc, ← Nat.pow_add, Nat.sub_add_cancel hle]

end IsCanonical

/-- The value behind a value. -/
def next (x : Binary64) : Binary64 := normalize (x.mantissa + 1) x.scale

/-- A rounded mantissa and its scale are those of a value. -/
theorem isCanonical_normalize {mantissa scale : Nat} (h : mantissa ≤ 2 ^ 53)
    (hnormal : scale = 0 ∨ 2 ^ 52 ≤ mantissa) : (normalize mantissa scale).IsCanonical := by
  unfold normalize
  split_ifs with hfull
  · exact ⟨by simp, .inr le_rfl⟩
  · exact ⟨lt_of_le_of_ne h hfull, hnormal⟩

/-- A rounded mantissa stays even or odd. -/
theorem mantissa_normalize (mantissa scale : Nat) :
    (normalize mantissa scale).mantissa % 2 = mantissa % 2 := by
  unfold normalize
  split_ifs with hfull
  · have hparity : Nat.pow 2 52 % 2 = Nat.pow 2 53 % 2 := by decide +kernel
    rw [hfull]
    exact hparity
  · rfl

/-- The value behind a value is a unit of the scale above it. -/
theorem units_next (x : Binary64) : x.next.units = x.units + 2 ^ x.scale := by
  rw [next, units_normalize]
  exact Nat.succ_mul _ _

namespace IsCanonical

variable {x y : Binary64}

/-- The value behind a value is one. -/
theorem next (hx : x.IsCanonical) : x.next.IsCanonical :=
  isCanonical_normalize hx.bounded (hx.normal.imp_right fun h => h.trans (Nat.le_succ _))

/-- There is no value between a value and the one behind it. -/
theorem next_le (hx : x.IsCanonical) (hy : y.IsCanonical) (h : x.units < y.units) :
    x.next.units ≤ y.units := by
  rw [units_next, units_eq, ← Nat.succ_mul]
  rcases hy.on_grid x.scale with ⟨k, hk⟩ | ⟨hscale, hbelow⟩
  · rw [hk] at h ⊢
    exact Nat.mul_le_mul_right _ (Nat.lt_of_mul_lt_mul_right h)
  · have hmantissa : 2 ^ 52 ≤ x.mantissa := hx.normal.resolve_left hscale.ne'
    exact absurd (Nat.mul_le_mul_right (2 ^ x.scale) hmantissa) (Nat.not_le.mpr (h.trans hbelow))

end IsCanonical

namespace IsNearest

variable {values : Binary64 → Prop} {q : ℚ} {x y : Binary64}

/-- What is nearest is not below a value that is not above the number. -/
theorem toRat_le_toRat (h : IsNearest values q x) (hy : values y) (hq : y.toRat ≤ q) :
    y.toRat ≤ x.toRat := by
  by_contra hlt
  have hnear := h.near y hy
  rw [abs_of_nonneg (by linarith), abs_of_nonneg (by linarith)] at hnear
  linarith

/-- A value is nearest to itself. -/
theorem toRat_eq (h : IsNearest values q x) (hy : values y) (hq : y.toRat = q) : x.toRat = q := by
  have hnear := h.near y hy
  rw [hq, sub_self, abs_zero] at hnear
  exact (sub_eq_zero.mp (abs_nonpos_iff.mp hnear)).symm

/-- Of two nearest values the first is not the lower one. -/
theorem not_lt (hx : IsNearest IsCanonical q x) (hy : IsNearest IsCanonical q y) :
    ¬ x.units < y.units := by
  intro hlt
  have hdistance : |q - y.toRat| = |q - x.toRat| :=
    (hy.near x hx.mem).antisymm (hx.near y hy.mem)
  have hne : y ≠ x := fun heq => hlt.ne (congrArg units heq).symm
  have hxeven := (hx.even y hy.mem hdistance).resolve_left hne
  have hyeven := (hy.even x hx.mem hdistance.symm).resolve_left hne.symm
  have hnext : x.next.mantissa % 2 = 1 := by
    rw [next, mantissa_normalize]
    omega
  have hbetween : x.next.units < y.units := by
    refine lt_of_le_of_ne (hx.mem.next_le hy.mem hlt) fun heq => ?_
    rw [hx.mem.next.eq_of_units hy.mem heq] at hnext
    omega
  have habove : x.toRat < x.next.toRat := by
    rw [toRat_lt_toRat, units_next]
    exact Nat.lt_add_of_pos_right (Nat.two_pow_pos _)
  have hbelow : x.next.toRat < y.toRat := toRat_lt_toRat.mpr hbetween
  -- The number is in the middle, and the value behind the lower one is nearer to it.
  have hmiddle : q - x.toRat = y.toRat - q := by
    rcases abs_eq_abs.mp hdistance with heq | heq <;> linarith
  refine absurd (hx.near x.next hx.mem.next) (not_le.mpr ?_)
  rw [abs_of_nonneg (by linarith : 0 ≤ q - x.toRat), abs_lt]
  constructor <;> linarith

/-- There is one nearest value. -/
theorem unique (hx : IsNearest IsCanonical q x) (hy : IsNearest IsCanonical q y) : x = y :=
  hx.mem.eq_of_units hy.mem
    (le_antisymm (Nat.not_lt.mp (hy.not_lt hx)) (Nat.not_lt.mp (hx.not_lt hy)))

end IsNearest

/-- The scale at which a fraction is rounded: its mantissa fits, and has all its digits unless
the scale is zero. -/
theorem mantissa_bounds (num : Nat) {den : Nat} (h : 0 < den) :
    num ≤ 2 ^ 53 * (den * 2 ^ ((num / den).log2 - 52)) ∧
      ((num / den).log2 - 52 = 0 ∨ 2 ^ 52 * (den * 2 ^ ((num / den).log2 - 52)) ≤ num) := by
  have hquotient : num < den * (num / den + 1) := by
    rw [Nat.mul_comm]
    exact Nat.lt_mul_of_div_lt (Nat.lt_succ_self _) h
  have hupper : num / den + 1 ≤ 2 ^ 53 * 2 ^ ((num / den).log2 - 52) := by
    rw [← Nat.pow_add]
    exact Nat.lt_log2_self.trans_le (Nat.pow_le_pow_right (by decide) (by omega))
  constructor
  · rw [Nat.mul_left_comm]
    exact hquotient.le.trans (Nat.mul_le_mul_left den hupper)
  · by_cases hscale : (num / den).log2 - 52 = 0
    · exact .inl hscale
    · have hne : num / den ≠ 0 := fun hzero => hscale (by rw [hzero]; rfl)
      have hlower : 2 ^ 52 * 2 ^ ((num / den).log2 - 52) ≤ num / den := by
        rw [← Nat.pow_add, Nat.add_sub_cancel' (by omega)]
        exact Nat.log2_self_le hne
      rw [Nat.mul_left_comm]
      exact .inr ((Nat.mul_le_mul_left den hlower).trans (Nat.mul_div_le num den))

/-- A rounded mantissa is nearest to a fraction, in units, if it fits and the fraction is not
below the least mantissa of its scale. -/
theorem units_near {num den mantissa scale : Nat}
    (h : IsRounded num (den * 2 ^ scale) mantissa)
    (hnum : scale = 0 ∨ 2 ^ 52 * (den * 2 ^ scale) ≤ num) (hden : 0 < den)
    {y : Binary64} (hy : y.IsCanonical) :
    Nat.dist num ((normalize mantissa scale).units * den) ≤ Nat.dist num (y.units * den) ∧
      (Nat.dist num (y.units * den) = Nat.dist num ((normalize mantissa scale).units * den) →
        y.units = (normalize mantissa scale).units ∨ mantissa % 2 = 0) := by
  have hgrid (k : Nat) : k * 2 ^ scale * den = k * (den * 2 ^ scale) := by
    rw [Nat.mul_assoc, Nat.mul_comm (2 ^ scale)]
  have hunits : (normalize mantissa scale).units = mantissa * 2 ^ scale :=
    units_normalize mantissa scale
  rw [hunits, hgrid]
  rcases hy.on_grid scale with ⟨k, hk⟩ | ⟨hscale, hbelow⟩
  · obtain ⟨hnear, heven⟩ := h.near k
    rw [hk, hgrid]
    exact ⟨hnear, fun heq => (heven heq).imp_left (congrArg (· * 2 ^ scale))⟩
  · -- The least mantissa of the scale is on the grid, and between the value and the fraction.
    obtain ⟨hnear, -⟩ := h.near (2 ^ 52)
    have hleast : y.units * den < 2 ^ 52 * (den * 2 ^ scale) := by
      rw [← hgrid]
      exact Nat.mul_lt_mul_of_pos_right hbelow hden
    have hnum := hnum.resolve_left hscale.ne'
    rw [Nat.dist_eq_sub_of_le_right hnum] at hnear
    rw [Nat.dist_eq_sub_of_le_right (hleast.le.trans hnum)]
    exact ⟨by omega, fun heq => by omega⟩

/-- Rounding a fraction gives the nearest value. -/
theorem isNearest_nearest (num : Nat) {den : Nat} (h : 0 < den) :
    IsNearest IsCanonical ((num : ℚ) / den) (nearest num den) := by
  set scale := (num * one / den).log2 - 52 with hscale
  obtain ⟨hupper, hlower⟩ := mantissa_bounds (num * one) h
  rw [← hscale] at hupper hlower
  have hunit : 0 < den * 2 ^ scale := Nat.mul_pos h (Nat.two_pow_pos scale)
  have hrounded := divNearest_isRounded (num * one) hunit
  set mantissa := divNearest (num * one) (den * 2 ^ scale) with hmantissa
  have hnearest : nearest num den = normalize mantissa scale := rfl
  have hcanonical : (normalize mantissa scale).IsCanonical :=
    isCanonical_normalize (hrounded.le_of_le_mul hunit hupper)
      (hlower.imp_right (hrounded.le_of_mul_le hunit))
  have hparts : (0 : ℚ) < (den * one : Nat) := Nat.cast_pos.mpr (Nat.mul_pos h one_pos)
  rw [hnearest]
  refine ⟨hcanonical, fun y hy => ?_, fun y hy heq => ?_⟩
  · rw [abs_sub_toRat num h, abs_sub_toRat num h, div_le_div_iff_of_pos_right hparts,
      Nat.cast_le]
    exact (units_near hrounded hlower h hy).1
  · rw [abs_sub_toRat num h, abs_sub_toRat num h, div_left_inj' hparts.ne', Nat.cast_inj] at heq
    rw [mantissa_normalize]
    exact ((units_near hrounded hlower h hy).2 heq).imp_left (hy.eq_of_units hcanonical)

/-- A number of at most half a unit is nearest to zero. -/
theorem isNearest_zero {q : ℚ} (h : 0 ≤ q) (hsmall : 2 * q * one ≤ 1) :
    IsNearest IsCanonical q ⟨0, 0⟩ := by
  have hone : (0 : ℚ) < one := Nat.cast_pos.mpr one_pos
  have hzero : toRat ⟨0, 0⟩ = 0 := toRat_eq_zero_iff.mpr rfl
  refine ⟨⟨by decide, .inl rfl⟩, fun y _ => ?_, fun _ _ _ => .inr rfl⟩
  rw [hzero, sub_zero, abs_of_nonneg h]
  rcases Nat.eq_zero_or_pos y.units with hnone | hunits
  · rw [toRat, hnone, Nat.cast_zero, zero_div, sub_zero]
    exact le_abs_self q
  · have hunit : 1 / (one : ℚ) ≤ y.toRat :=
      div_le_div_of_nonneg_right (Nat.one_le_cast.mpr hunits) hone.le
    have hhalf : 2 * q ≤ 1 / one := (le_div_iff₀ hone).mpr hsmall
    rw [abs_sub_comm]
    exact (by linarith : q ≤ y.toRat - q).trans (le_abs_self _)

/-- The value that is `2 ^ 64`, the least one that is too large for seconds. -/
def limit : Binary64 := ⟨2 ^ 52, 1086⟩

/-- The limit is a value. -/
theorem isFinite_limit : limit.IsFinite := ⟨⟨by decide +kernel, .inr le_rfl⟩, by decide⟩

/-- The number of the limit. -/
theorem toRat_limit : limit.toRat = 2 ^ 64 := by
  have hunits : limit.units = 2 ^ 64 * one := by decide +kernel
  have hone : (one : ℚ) ≠ 0 := Nat.cast_ne_zero.mpr one_pos.ne'
  rw [toRat, hunits, Nat.cast_mul, mul_div_cancel_right₀ _ hone]
  norm_num

/-- Whether values have a greatest exponent does not matter for which of the lower ones is
nearest. -/
theorem isNearest_isFinite_iff {q : ℚ} {x : Binary64} (h : x.toRat < 2 ^ 64) :
    IsNearest IsFinite q x ↔ IsNearest IsCanonical q x := by
  have hlimit := isFinite_limit
  have hbeyond {y : Binary64} (hy : y.IsCanonical) (hscale : 2045 < y.scale) :
      limit.toRat < y.toRat :=
    toRat_lt_toRat.mpr (hlimit.units_lt_of_scale hy (Nat.lt_trans (by decide) hscale))
  rw [← toRat_limit] at h
  constructor
  · intro hx
    have hq : q < limit.toRat := lt_of_not_ge fun hle =>
      h.not_ge (hx.toRat_le_toRat hlimit hle)
    have hfar {y : Binary64} (hy : y.IsCanonical) (hscale : 2045 < y.scale) :
        |q - x.toRat| < |q - y.toRat| := by
      have hnear := hx.near limit hlimit
      have habove := hbeyond hy hscale
      rw [abs_of_nonpos (by linarith : q - limit.toRat ≤ 0)] at hnear
      rw [abs_of_nonpos (by linarith : q - y.toRat ≤ 0)]
      linarith
    refine ⟨hx.mem.toIsCanonical, fun y hy => ?_, fun y hy heq => ?_⟩
    · rcases Nat.lt_or_ge 2045 y.scale with hscale | hscale
      · exact (hfar hy hscale).le
      · exact hx.near y ⟨hy, hscale⟩
    · rcases Nat.lt_or_ge 2045 y.scale with hscale | hscale
      · exact absurd heq (hfar hy hscale).ne'
      · exact hx.even y ⟨hy, hscale⟩ heq
  · intro hx
    have hscale : x.scale ≤ 2045 := Nat.le_of_not_lt fun hscale =>
      lt_asymm h (hbeyond hx.mem hscale)
    exact ⟨⟨hx.mem, hscale⟩, fun y hy => hx.near y hy.toIsCanonical,
      fun y hy => hx.even y hy.toIsCanonical⟩

end Binary64

end LineScript
