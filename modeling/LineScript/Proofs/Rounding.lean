import Mathlib.Algebra.Order.Floor.Semiring
import Mathlib.Data.Rat.Floor
import LineScript.Proofs.Nearest

/-!
# How far rounding goes

Rounding keeps the order, to whole numbers and to binary64 values alike. A number of so many
units of a scale is at most half such a unit away from its nearest value, and a whole number of
at most 53 binary digits is a value itself. Main result: what lies at most half way to the
neighbours of a value, and not exactly half way if the mantissa is odd, is rounded to the value.
Below a least mantissa the neighbour is nearer by half.
-/

namespace LineScript

namespace IsRounded

variable {num num' den n n' : Nat}

/-- What is rounded to is at most half a unit away. -/
theorem abs_sub_le_half (h : IsRounded num den n) (hden : 0 < den) :
    |(num : ℚ) / den - n| ≤ 1 / 2 := by
  have hpos : (0 : ℚ) < den := Nat.cast_pos.mpr hden
  have habove : (2 : ℚ) * num ≤ 2 * (n * den) + den := by exact_mod_cast h.above
  have hbelow : (2 : ℚ) * (n * den) ≤ 2 * num + den := by exact_mod_cast h.below
  rw [abs_le]
  constructor
  · rw [le_sub_iff_add_le, le_div_iff₀ hpos]
    linarith
  · rw [sub_le_iff_le_add, div_le_iff₀ hpos]
    linarith

/-- A whole number that is less than half a unit away is what is rounded to. -/
theorem eq_of_abs_sub_lt (h : IsRounded num den n) (hden : 0 < den) {k : Nat}
    (hk : |(num : ℚ) / den - k| < 1 / 2) : n = k := by
  have hdistance : |(n : ℚ) - k| < 1 :=
    calc |(n : ℚ) - k| ≤ |(n : ℚ) - num / den| + |(num : ℚ) / den - k| := abs_sub_le _ _ _
      _ < 1 / 2 + 1 / 2 := by
        rw [abs_sub_comm]
        exact add_lt_add_of_le_of_lt (h.abs_sub_le_half hden) hk
      _ = 1 := by norm_num
  have hwhole : |(n : ℤ) - k| < 1 := by exact_mod_cast hdistance
  have hzero : (n : ℤ) - k = 0 := Int.abs_lt_one_iff.mp hwhole
  omega

/-- Rounding to whole numbers keeps the order. -/
theorem mono (h : IsRounded num den n) (h' : IsRounded num' den n') (hden : 0 < den)
    (hle : num ≤ num') : n ≤ n' := by
  obtain ⟨-, hbelow, heven⟩ := h
  obtain ⟨habove, -, heven'⟩ := h'
  by_contra hlt
  have hstep := mul_add_le (Nat.lt_of_not_le hlt) den
  -- The two numbers are the same and half a unit from both whole numbers, which are even then.
  have hsame : num = num' := by omega
  have hn : n % 2 = 0 := heven (by omega)
  have hn' : n' % 2 = 0 := heven' (by omega)
  have htwo := mul_add_le (by omega : n' + 1 < n) den
  rw [Nat.succ_mul] at htwo
  omega

end IsRounded

namespace Binary64

/-- Values are not negative. -/
theorem toRat_nonneg (x : Binary64) : 0 ≤ x.toRat := by
  rw [toRat]
  positivity

/-- How far a number is from a value, in parts of the unit. -/
theorem abs_sub_toRat_eq (q : ℚ) (x : Binary64) :
    |q - x.toRat| = |q * one - x.units| / one := by
  have hone : (0 : ℚ) < one := Nat.cast_pos.mpr one_pos
  rw [eq_div_iff hone.ne', ← abs_of_pos hone, ← abs_mul, abs_of_pos hone, sub_mul, toRat,
    div_mul_cancel₀ _ hone.ne']

/-- So many units of a scale are a value, if their number has at most 53 binary digits. -/
theorem exists_units {k : Nat} (scale : Nat) (h : k ≤ 2 ^ 53) :
    ∃ x : Binary64, x.IsCanonical ∧ x.units = k * 2 ^ scale := by
  induction scale generalizing k with
  | zero => exact ⟨normalize k 0, isCanonical_normalize h (.inl rfl), units_normalize k 0⟩
  | succ scale ih =>
    rcases Nat.lt_or_ge k (2 ^ 52) with hlt | hle
    · obtain ⟨x, hx, hunits⟩ := ih (by omega : k * 2 ≤ 2 ^ 53)
      refine ⟨x, hx, hunits.trans ?_⟩
      rw [Nat.pow_succ, Nat.mul_assoc, Nat.mul_comm 2]
    · exact ⟨normalize k (scale + 1), isCanonical_normalize h (.inr hle),
        units_normalize k (scale + 1)⟩

namespace IsNearest

variable {q q' : ℚ} {x x' : Binary64}

/-- Rounding to values keeps the order. -/
theorem toRat_mono (h : IsNearest IsCanonical q x) (h' : IsNearest IsCanonical q' x')
    (hle : q ≤ q') : x.toRat ≤ x'.toRat := by
  by_contra! hlt
  have hnear := h.near x' h'.mem
  have hnear' := h'.near x h.mem
  have hhigh : x.toRat + x'.toRat ≤ 2 * q := by
    rcases abs_cases (q - x.toRat) with hx | hx <;>
      rcases abs_cases (q - x'.toRat) with hx' | hx' <;> linarith
  have hlow : 2 * q' ≤ x.toRat + x'.toRat := by
    rcases abs_cases (q' - x.toRat) with hx | hx <;>
      rcases abs_cases (q' - x'.toRat) with hx' | hx' <;> linarith
  -- Both numbers are in the middle, and there is one nearest value.
  obtain rfl : q = q' := by linarith
  exact hlt.ne' (congrArg toRat (h.unique h'))

/-- A number of at most `2 ^ 53` units of a scale is at most half such a unit away from its
nearest value. -/
theorem abs_sub_toRat_le (h : IsNearest IsCanonical q x) (hq : 0 ≤ q) {scale : Nat}
    (hle : q * one ≤ 2 ^ 53 * 2 ^ scale) : |q - x.toRat| ≤ 2 ^ scale / (2 * one) := by
  have hone : (0 : ℚ) < one := Nat.cast_pos.mpr one_pos
  have hunit : (0 : ℚ) < 2 ^ scale := by positivity
  set part : ℚ := q * one / 2 ^ scale with hpart
  have hpartUnits : part * 2 ^ scale = q * one := div_mul_cancel₀ _ hunit.ne'
  have hnonneg : 0 ≤ part + 1 / 2 := by positivity
  have hfloor : (⌊part + 1 / 2⌋₊ : ℚ) ≤ part + 1 / 2 := Nat.floor_le hnonneg
  have hnext : part + 1 / 2 < (⌊part + 1 / 2⌋₊ : ℚ) + 1 := Nat.lt_floor_add_one _
  have hpartLe : part ≤ 2 ^ 53 := by
    rw [hpart, div_le_iff₀ hunit]
    exact hle
  have hdigits : ⌊part + 1 / 2⌋₊ ≤ 2 ^ 53 := by
    have hbelow : (⌊part + 1 / 2⌋₊ : ℚ) < (2 ^ 53 : Nat) + 1 := by
      push_cast
      linarith
    exact Nat.lt_succ_iff.mp (by exact_mod_cast hbelow)
  obtain ⟨y, hy, hunits⟩ := exists_units scale hdigits
  refine (h.near y hy).trans ?_
  have hhalf : |q * one - y.units| ≤ 2 ^ scale / 2 := by
    have hgrid : q * one - y.units = (part - ⌊part + 1 / 2⌋₊) * 2 ^ scale := by
      rw [hunits, sub_mul, hpartUnits]
      push_cast
      ring
    have hpartHalf : |part - ⌊part + 1 / 2⌋₊| ≤ 1 / 2 := by
      rw [abs_le]
      constructor <;> linarith
    rw [hgrid, abs_mul, abs_of_pos hunit]
    calc |part - ⌊part + 1 / 2⌋₊| * 2 ^ scale ≤ 1 / 2 * 2 ^ scale :=
          mul_le_mul_of_nonneg_right hpartHalf hunit.le
      _ = 2 ^ scale / 2 := by ring
  rw [abs_sub_toRat_eq, ← div_div]
  exact div_le_div_of_nonneg_right hhalf hone.le

/-- A number up to a power of two is at most `2 ^ -54` of that power away from its nearest
value. -/
theorem abs_sub_toRat_le_of_le_two_pow (h : IsNearest IsCanonical q x) (hq : 0 ≤ q) {k : Nat}
    (hle : q ≤ 2 ^ k) : |q - x.toRat| ≤ 2 ^ k / 2 ^ 54 := by
  obtain ⟨scale, hscale⟩ : ∃ scale, one = 2 ^ 53 * 2 ^ scale := ⟨1021, by decide +kernel⟩
  have hone : (one : ℚ) = 2 ^ 53 * 2 ^ scale := by exact_mod_cast hscale
  have hunit : (0 : ℚ) < 2 ^ scale := by positivity
  have hunits : q * one ≤ 2 ^ 53 * 2 ^ (scale + k) :=
    calc q * one ≤ 2 ^ k * (2 ^ 53 * 2 ^ scale) := by
          rw [hone]
          exact mul_le_mul_of_nonneg_right hle (by positivity)
      _ = 2 ^ 53 * 2 ^ (scale + k) := by rw [pow_add]; ring
  calc |q - x.toRat| ≤ 2 ^ (scale + k) / (2 * one) := h.abs_sub_toRat_le hq hunits
    _ = 2 ^ k * 2 ^ scale / (2 ^ 54 * 2 ^ scale) := by rw [hone, pow_add]; ring
    _ = 2 ^ k / 2 ^ 54 := mul_div_mul_right _ _ hunit.ne'

/-- A whole number of at most 53 binary digits is a value. -/
theorem toRat_eq_natCast {n : Nat} (h : IsNearest IsCanonical n x) (hn : n ≤ 2 ^ 53) :
    x.toRat = n := by
  have hone : (one : ℚ) ≠ 0 := Nat.cast_ne_zero.mpr one_pos.ne'
  obtain ⟨scale, hscale⟩ : ∃ scale, one = 2 ^ scale := ⟨1074, by decide +kernel⟩
  obtain ⟨y, hy, hunits⟩ := exists_units scale hn
  refine h.toRat_eq hy ?_
  rw [toRat, hunits, ← hscale, Nat.cast_mul, mul_div_cancel_right₀ _ hone]

end IsNearest

/-- How far the next lower value is below a value, in units: half as far as the next higher one
is above it, if the mantissa is the least one of a scale. -/
def gapBelow (x : Binary64) : ℚ :=
  if x.mantissa = 2 ^ 52 ∧ 0 < x.scale then 2 ^ x.scale / 2 else 2 ^ x.scale

/-- Whether a number lies at most half way to the neighbours of a value, and not exactly half
way unless the mantissa is even. -/
structure IsWithin (x : Binary64) (q : ℚ) : Prop where
  /-- It lies at most half way to the next higher value. -/
  above : q * one ≤ x.units + 2 ^ x.scale / 2
  /-- It lies at most half way to the next lower value. -/
  below : x.units - x.gapBelow / 2 ≤ q * one
  /-- Half way the mantissa is even. -/
  even : q * one = x.units + 2 ^ x.scale / 2 ∨ q * one = x.units - x.gapBelow / 2 →
    x.mantissa % 2 = 0

/-- There is a gap. -/
theorem gapBelow_pos (x : Binary64) : 0 < x.gapBelow := by
  rw [gapBelow]
  split_ifs <;> positivity

/-- Lower values are below the gap. -/
theorem IsCanonical.add_gapBelow_le {x y : Binary64} (hx : x.IsCanonical) (hy : y.IsCanonical)
    (h : y.units < x.units) : (y.units : ℚ) + x.gapBelow ≤ x.units := by
  -- The difference is a unit of a scale, as both values lie on the grid of that scale.
  have hgrid (scale k l : Nat) (hunits : y.units = k * 2 ^ scale)
      (hown : x.units = l * 2 ^ scale) : y.units + 2 ^ scale ≤ x.units := by
    rw [hunits, hown] at h ⊢
    rw [← Nat.succ_mul]
    exact Nat.mul_le_mul_right _ (Nat.lt_of_mul_lt_mul_right h)
  rw [gapBelow]
  split_ifs with hleast
  · obtain ⟨hmantissa, hscale⟩ := hleast
    obtain ⟨scale, hsucc⟩ : ∃ scale, x.scale = scale + 1 := ⟨x.scale - 1, by omega⟩
    have hown : x.units = 2 ^ 53 * 2 ^ scale := by
      rw [units_eq, hmantissa, hsucc]
      ring
    have hstep : y.units + 2 ^ scale ≤ x.units := by
      rcases hy.on_grid scale with ⟨k, hk⟩ | ⟨-, hbelow⟩
      · exact hgrid scale k _ hk hown
      · have hunit : 2 ^ scale ≤ 2 ^ 52 * 2 ^ scale := Nat.le_mul_of_pos_left _ (by decide)
        rw [hown]
        omega
    have hhalf : (2 : ℚ) ^ x.scale / 2 = 2 ^ scale := by
      rw [hsucc, pow_succ]
      ring
    rw [hhalf]
    exact_mod_cast hstep
  · have hstep : y.units + 2 ^ x.scale ≤ x.units := by
      rcases hy.on_grid x.scale with ⟨k, hk⟩ | ⟨hscale, hbelow⟩
      · exact hgrid x.scale k _ hk (units_eq x)
      · have hmantissa : 2 ^ 52 + 1 ≤ x.mantissa := by
          have hnormal := hx.normal.resolve_left hscale.ne'
          omega
        have hunits : (2 ^ 52 + 1) * 2 ^ x.scale ≤ x.units := Nat.mul_le_mul_right _ hmantissa
        rw [Nat.succ_mul] at hunits
        omega
    exact_mod_cast hstep

/-- What lies within reach of a value is rounded to it. -/
theorem IsCanonical.isNearest {x : Binary64} {q : ℚ} (hx : x.IsCanonical) (h : x.IsWithin q) :
    IsNearest IsCanonical q x := by
  obtain ⟨habove, hbelow, heven⟩ := h
  have hone : (0 : ℚ) < one := Nat.cast_pos.mpr one_pos
  have hscale : (0 : ℚ) < 2 ^ x.scale := by positivity
  have hgap := x.gapBelow_pos
  -- Another value is beyond one of the two neighbours.
  have hside (y : Binary64) (hy : y.IsCanonical) :
      y = x ∨ (y.units : ℚ) + x.gapBelow ≤ x.units ∨ (x.units : ℚ) + 2 ^ x.scale ≤ y.units := by
    rcases Nat.lt_trichotomy y.units x.units with hlt | heq | hgt
    · exact .inr (.inl (hx.add_gapBelow_le hy hlt))
    · exact .inl (hy.eq_of_units hx heq)
    · have hnext := hx.next_le hy hgt
      rw [units_next] at hnext
      exact .inr (.inr (by exact_mod_cast hnext))
  refine ⟨hx, fun y hy => ?_, fun y hy heq => ?_⟩
  · rw [abs_sub_toRat_eq, abs_sub_toRat_eq, div_le_div_iff_of_pos_right hone]
    rcases hside y hy with rfl | hlower | hupper
    · exact le_rfl
    · rw [abs_of_nonneg (by linarith : 0 ≤ q * one - y.units), abs_le]
      constructor <;> linarith
    · rw [abs_of_nonpos (by linarith : q * one - y.units ≤ 0), abs_le]
      constructor <;> linarith
  · rw [abs_sub_toRat_eq, abs_sub_toRat_eq, div_left_inj' hone.ne'] at heq
    rcases hside y hy with rfl | hlower | hupper
    · exact .inl rfl
    · refine .inr (heven (.inr (le_antisymm ?_ hbelow)))
      rw [abs_of_nonneg (by linarith : 0 ≤ q * one - y.units)] at heq
      rcases abs_cases (q * one - x.units) with hcase | hcase <;> linarith
    · refine .inr (heven (.inl (le_antisymm habove ?_)))
      rw [abs_of_nonpos (by linarith : q * one - y.units ≤ 0)] at heq
      rcases abs_cases (q * one - x.units) with hcase | hcase <;> linarith

/-- A value is rounded to itself. -/
theorem IsCanonical.isNearest_toRat {x : Binary64} (hx : x.IsCanonical) :
    IsNearest IsCanonical x.toRat x := by
  have hgap := x.gapBelow_pos
  have hscale : (0 : ℚ) < 2 ^ x.scale := by positivity
  have hunits : x.toRat * one = x.units := div_mul_cancel₀ _ (Nat.cast_ne_zero.mpr one_pos.ne')
  refine hx.isNearest ⟨?_, ?_, ?_⟩
  · rw [hunits]
    linarith
  · rw [hunits]
    linarith
  · rintro (heq | heq) <;> linarith

/-- What is nearer than half a unit is rounded to a value whose mantissa is not the least one. -/
theorem IsCanonical.isNearest_of_abs_sub_lt {x : Binary64} {q : ℚ} (hx : x.IsCanonical)
    (hmantissa : x.mantissa ≠ 2 ^ 52) (h : |q - x.toRat| < 2 ^ x.scale / (2 * one)) :
    IsNearest IsCanonical q x := by
  have hone : (0 : ℚ) < one := Nat.cast_pos.mpr one_pos
  have hgap : x.gapBelow = 2 ^ x.scale := if_neg fun hleast => hmantissa hleast.1
  rw [abs_sub_toRat_eq, ← div_div, div_lt_div_iff_of_pos_right hone, abs_lt] at h
  refine hx.isNearest ⟨by linarith, ?_, ?_⟩
  · rw [hgap]
    linarith
  · rw [hgap]
    rintro (heq | heq) <;> linarith

/-- A whole number is rounded. -/
theorem isNearest_natCast (n : Nat) : IsNearest IsCanonical n (nearest n 1) := by
  have hnearest := isNearest_nearest n Nat.one_pos
  rwa [Nat.cast_one, div_one] at hnearest

/-- The sum of two values is rounded. -/
theorem isNearest_add (x y : Binary64) : IsNearest IsCanonical (x.toRat + y.toRat) (x.add y) := by
  have hsum := isNearest_nearest (x.units + y.units) one_pos
  rwa [Nat.cast_add, add_div] at hsum

end Binary64

end LineScript
