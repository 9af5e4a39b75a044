import LineScript.Number.Shortest
import LineScript.Proofs.Rounding

/-!
# The shortest decimal reads back

A value is looked for on grids of decimals with more and more digits. What is found lies within
reach of the value, and a grid with seventeen digits always has such a decimal, since its step is
below the width of what is rounded to the value. Main result: the shortest decimal of a value is
a number that is rounded to it.
-/

namespace LineScript

/-- The number of a decimal. -/
def Decimal.toRat (d : Decimal) : ℚ := d.digits * 10 ^ d.exponent

namespace Binary64

/-- A carry into one more digit keeps the number. -/
theorem toRat_decimalOf (digits : Nat) {count : Nat} (exponent : Int) (h : 0 < count) :
    (decimalOf digits count exponent).toRat = digits * 10 ^ exponent := by
  have hten : (10 : ℚ) ≠ 0 := by norm_num
  obtain ⟨count, rfl⟩ : ∃ k, count = k + 1 := ⟨count - 1, by omega⟩
  rw [decimalOf]
  split_ifs with hcarry
  · rw [hcarry, Decimal.toRat, Nat.add_sub_cancel, zpow_add_one₀ hten, Nat.pow_eq, Nat.pow_eq,
      pow_succ]
    push_cast
    ring
  · rfl

/-- Whether a whole number lies between two ends, where the ends may count or not. -/
structure IsInside (low high : Nat) (closed : Bool) (n : Nat) : Prop where
  /-- It is not below the lower end. -/
  low_le : low ≤ n
  /-- It is not above the higher end. -/
  le_high : n ≤ high
  /-- It is an end only if the ends count. -/
  ends : n = low ∨ n = high → closed = true

section Grids

variable {step value low high place : Nat} {closed : Bool}

/-- The test for an end decides whether a number lies inside. -/
theorem isInside_iff {n : Nat} :
    (if closed then decide (low ≤ n) && decide (n ≤ high)
      else decide (low < n) && decide (n < high)) = true ↔ IsInside low high closed n := by
  cases closed with
  | true =>
    rw [if_pos rfl, Bool.and_eq_true, decide_eq_true_iff, decide_eq_true_iff]
    exact ⟨fun h => ⟨h.1, h.2, fun _ => rfl⟩, fun h => ⟨h.low_le, h.le_high⟩⟩
  | false =>
    rw [if_neg Bool.false_ne_true, Bool.and_eq_true, decide_eq_true_iff, decide_eq_true_iff]
    refine ⟨fun h => ⟨h.1.le, h.2.le, fun hend => by omega⟩, fun h => ?_⟩
    have hlow : n ≠ low := fun heq => Bool.false_ne_true (h.ends (.inl heq))
    have hhigh : n ≠ high := fun heq => Bool.false_ne_true (h.ends (.inr heq))
    exact ⟨lt_of_le_of_ne h.low_le hlow.symm, lt_of_le_of_ne h.le_high hhigh⟩

/-- What is found on a grid lies inside. -/
theorem isInside_of_onGrid? {n : Nat} (h : onGrid? step value low high closed = some n) :
    IsInside low high closed (n * step) := by
  rw [onGrid?] at h
  split at h
  · next hbelow habove =>
    rw [isInside_iff] at hbelow habove
    cases h
    split_ifs
    · exact habove
    · exact hbelow
  · next hbelow _ =>
    cases h
    exact isInside_iff.mp hbelow
  · next _ habove =>
    cases h
    exact isInside_iff.mp habove
  · cases h

/-- On a grid with a step below the width something is found. -/
theorem exists_onGrid? (hstep : 0 < step) (hlow : low < value) (hhigh : value < high)
    (hwidth : low + step < high) : ∃ n, onGrid? step value low high closed = some n := by
  have hfloor : value / step * step ≤ value := Nat.div_mul_le_self value step
  have hnext : value < (value / step + 1) * step := Nat.lt_mul_of_div_lt (Nat.lt_succ_self _) hstep
  have hsucc : (value / step + 1) * step = value / step * step + step := Nat.succ_mul _ _
  -- Either the multiple below the value is inside or the one above it.
  have hfound : IsInside low high closed (value / step * step) ∨
      IsInside low high closed ((value / step + 1) * step) := by
    rcases Nat.lt_or_ge low (value / step * step) with hinside | hbeyond
    · exact .inl ⟨hinside.le, by omega, by omega⟩
    · exact .inr ⟨by omega, by omega, by omega⟩
  rw [← isInside_iff, ← isInside_iff] at hfound
  rw [onGrid?]
  split
  · exact ⟨_, rfl⟩
  · exact ⟨_, rfl⟩
  · exact ⟨_, rfl⟩
  · next hbelow habove =>
    rcases hfound with hfound | hfound
    · exact nomatch hfound.symm.trans hbelow
    · exact nomatch hfound.symm.trans habove

/-- What a search comes upon stands on one of its grids and lies inside. -/
theorem isInside_of_searchGrids {left count : Nat} {d : Decimal} (hcount : 0 < count)
    (h : searchGrids value low high place closed left count = some d) :
    ∃ digits count' : Nat, count' < count + left ∧
      IsInside low high closed (digits * (4 * one * 10 ^ (place - count'))) ∧
      d.toRat = digits * 10 ^ ((place : Int) - count' - 360) := by
  induction left generalizing count with
  | zero => cases h
  | succ left ih =>
    rw [searchGrids] at h
    split at h
    · next digits hfound =>
      cases h
      exact ⟨digits, count, by omega, isInside_of_onGrid? hfound, toRat_decimalOf _ _ hcount⟩
    · obtain ⟨digits, count', hlt, hinside, hd⟩ := ih (Nat.succ_pos count) h
      exact ⟨digits, count', by omega, hinside, hd⟩

/-- A search comes upon something if one of its grids has it. -/
theorem exists_searchGrids {left count target : Nat} (hle : count ≤ target)
    (hlt : target < count + left)
    (h : ∃ n, onGrid? (4 * one * Nat.pow 10 (place - target)) value low high closed = some n) :
    ∃ d, searchGrids value low high place closed left count = some d := by
  induction left generalizing count with
  | zero => omega
  | succ left ih =>
    rw [searchGrids]
    split
    · exact ⟨_, rfl⟩
    · next hnone =>
      refine ih (Nat.lt_of_le_of_ne hle fun heq => ?_) (by omega)
      obtain ⟨n, hn⟩ := h
      rw [← heq, hnone] at hn
      cases hn

end Grids

/-- How far the interval that is searched goes above the value. -/
def reachAbove (x : Binary64) : Nat := 2 * 2 ^ x.scale * wide

/-- How far the interval that is searched goes below the value. -/
def reachBelow (x : Binary64) : Nat :=
  if x.mantissa = 2 ^ 52 ∧ 0 < x.scale then x.reachAbove / 2 else x.reachAbove

/-- The interval goes no further below the value than above it. -/
theorem reachBelow_le (x : Binary64) : x.reachBelow ≤ x.reachAbove := by
  rw [reachBelow]
  split_ifs
  · exact Nat.div_le_self _ _
  · exact le_rfl

/-- The interval goes half the gap below the value. -/
theorem reachBelow_eq (x : Binary64) : (x.reachBelow : ℚ) = 2 * x.gapBelow * wide := by
  have hhalf : x.reachAbove / 2 = 2 ^ x.scale * wide := by
    rw [reachAbove, Nat.mul_assoc, Nat.mul_div_cancel_left _ Nat.two_pos]
  rw [reachBelow, gapBelow]
  split_ifs
  · rw [hhalf]
    push_cast
    ring
  · rw [reachAbove]
    push_cast
    ring

/-- The interval goes below the value. -/
theorem reachBelow_pos (x : Binary64) : 0 < x.reachBelow := by
  have hwide : (0 : ℚ) < wide := by exact_mod_cast (by decide +kernel : 0 < wide)
  have hgap := x.gapBelow_pos
  have hpos : (0 : ℚ) < x.reachBelow := by
    rw [reachBelow_eq]
    positivity
  exact_mod_cast hpos

/-- The interval is so wide that it has a decimal of seventeen digits. -/
theorem IsCanonical.lt_reach {x : Binary64} (hx : x.IsCanonical) :
    4 * x.units * wide < 10 ^ 16 * (x.reachBelow + x.reachAbove) := by
  have hunits : x.units * wide = x.mantissa * (2 ^ x.scale * wide) := Nat.mul_assoc _ _ _
  have habove : x.reachAbove = 2 * (2 ^ x.scale * wide) := Nat.mul_assoc _ _ _
  have hpos : 0 < 2 ^ x.scale * wide :=
    Nat.mul_pos (Nat.pow_pos Nat.two_pos) (by decide +kernel : 0 < wide)
  rw [reachBelow, habove, Nat.mul_assoc, hunits]
  generalize 2 ^ x.scale * wide = part at hpos
  split_ifs with hleast
  · rw [hleast.1, Nat.mul_div_cancel_left _ Nat.two_pos]
    omega
  · have hmantissa : x.mantissa * part ≤ (2 ^ 53 - 1) * part :=
      Nat.mul_le_mul_right part (Nat.le_sub_one_of_lt hx.bounded)
    omega

/-- What lies inside the interval lies within reach of the value. -/
theorem isWithin_of_isInside {x : Binary64} {n : Nat} {q : ℚ}
    (hn : (n : ℚ) = q * one * (4 * wide))
    (h : IsInside (4 * x.units * wide - x.reachBelow) (4 * x.units * wide + x.reachAbove)
      (x.mantissa % 2 == 0) n) : x.IsWithin q := by
  have hwide : (0 : ℚ) < 4 * wide := by exact_mod_cast (by decide +kernel : 0 < 4 * wide)
  have hhigh : ((4 * x.units * wide + x.reachAbove : Nat) : ℚ) =
      (x.units + 2 ^ x.scale / 2) * (4 * wide) := by
    rw [reachAbove]
    push_cast
    ring
  have hlow : (4 * x.units * wide : Nat) - (x.reachBelow : ℚ) =
      (x.units - x.gapBelow / 2) * (4 * wide) := by
    rw [reachBelow_eq]
    push_cast
    ring
  refine ⟨?_, ?_, fun hend => beq_iff_eq.mp (h.ends (hend.symm.imp ?_ ?_))⟩
  · refine le_of_mul_le_mul_right ?_ hwide
    rw [← hhigh, ← hn]
    exact_mod_cast h.le_high
  · refine le_of_mul_le_mul_right ?_ hwide
    rw [← hlow, ← hn, sub_le_iff_le_add]
    exact_mod_cast tsub_le_iff_right.mp h.low_le
  · intro heq
    rw [← mul_left_inj' hwide.ne', ← hlow, ← hn, eq_sub_iff_add_eq] at heq
    have hwhole : n + x.reachBelow = 4 * x.units * wide := by exact_mod_cast heq
    omega
  · intro heq
    rw [← mul_left_inj' hwide.ne', ← hhigh, ← hn] at heq
    exact_mod_cast heq

/-- A whole number has more digits than a power of ten that is not above it has zeros. -/
theorem lt_digitCount {n k : Nat} (h : 10 ^ k ≤ n) : k < digitCount n := by
  rcases Nat.eq_zero_or_pos k with rfl | hk
  · exact List.length_pos_of_ne_nil Nat.toDigits_ne_nil
  · rw [← Nat.not_le, digitCount, Nat.length_toDigits_le_iff (by decide) hk]
    exact Nat.not_lt.mpr h

/-- The power of ten at the first digit of a whole number is not above it. -/
theorem pow_digitCount_le {n : Nat} (h : 0 < n) : 10 ^ (digitCount n - 1) ≤ n := by
  by_contra hlt
  have hpos : 0 < digitCount n - 1 := Nat.pos_of_ne_zero fun hzero => by
    rw [hzero] at hlt
    exact hlt h
  have hless := (Nat.length_toDigits_le_iff (by decide) hpos).mpr (Nat.lt_of_not_le hlt)
  rw [← digitCount] at hless
  omega

/-- A search for a value that is not zero comes upon a decimal. -/
theorem IsCanonical.exists_shortest {x : Binary64} (hx : x.IsCanonical) (hne : x.mantissa ≠ 0) :
    ∃ place d, 17 ≤ place ∧ x.shortest = d ∧
      searchGrids (4 * x.units * wide) (4 * x.units * wide - x.reachBelow)
        (4 * x.units * wide + x.reachAbove) place (x.mantissa % 2 == 0) 17 1 = some d := by
  have hwide : 10 ^ 16 * one ≤ wide := by decide +kernel
  have hunits : 0 < x.units := Nat.pos_of_ne_zero (units_eq_zero_iff.not.mpr hne)
  have hlarge : 10 ^ 16 ≤ x.units * wide / one :=
    (Nat.le_div_iff_mul_le one_pos).mpr (hwide.trans (Nat.le_mul_of_pos_left _ hunits))
  have hplace : 17 ≤ digitCount (x.units * wide / one) := lt_digitCount hlarge
  have hfirst : 10 ^ (digitCount (x.units * wide / one) - 1) * one ≤ x.units * wide :=
    (Nat.le_div_iff_mul_le one_pos).mp (pow_digitCount_le (Nat.lt_of_lt_of_le (by decide) hlarge))
  have hshortest : x.shortest = (searchGrids (4 * x.units * wide)
      (4 * x.units * wide - x.reachBelow) (4 * x.units * wide + x.reachAbove)
      (digitCount (x.units * wide / one)) (x.mantissa % 2 == 0) 17 1).getD ⟨0, 0⟩ := if_neg hne
  generalize digitCount (x.units * wide / one) = place at hplace hfirst hshortest
  obtain ⟨finer, rfl⟩ : ∃ finer, place = finer + 17 := ⟨place - 17, by omega⟩
  -- The step of the grid with seventeen digits is below the width of the interval.
  have hstep : 10 ^ 16 * (4 * one * 10 ^ finer) ≤ 4 * x.units * wide :=
    calc 10 ^ 16 * (4 * one * 10 ^ finer) = 4 * (10 ^ (finer + 17 - 1) * one) := by
          rw [Nat.add_sub_assoc (by decide : 1 ≤ 17), Nat.pow_add]
          ring
      _ ≤ 4 * (x.units * wide) := Nat.mul_le_mul_left 4 hfirst
      _ = 4 * x.units * wide := (Nat.mul_assoc _ _ _).symm
  have hpos : 0 < 4 * one * 10 ^ finer :=
    Nat.mul_pos (Nat.mul_pos (by decide) one_pos) (Nat.pow_pos (by decide))
  have hbelow := x.reachBelow_pos
  have habove := hbelow.trans_le x.reachBelow_le
  have hreach := hx.lt_reach
  have hfound : ∃ n, onGrid? (4 * one * Nat.pow 10 (finer + 17 - 17)) (4 * x.units * wide)
      (4 * x.units * wide - x.reachBelow) (4 * x.units * wide + x.reachAbove)
      (x.mantissa % 2 == 0) = some n := by
    rw [Nat.add_sub_cancel, Nat.pow_eq]
    exact exists_onGrid? hpos (by omega) (by omega) (by omega)
  obtain ⟨d, hd⟩ := exists_searchGrids (by decide : 1 ≤ 17) (by decide : 17 < 1 + 17) hfound
  refine ⟨_, d, hplace, ?_, hd⟩
  rw [hshortest, hd]
  rfl

/-- The shortest decimal of a value that is not zero lies within its reach. -/
theorem IsCanonical.isWithin_shortest {x : Binary64} (hx : x.IsCanonical) (hne : x.mantissa ≠ 0) :
    x.IsWithin x.shortest.toRat := by
  obtain ⟨place, d, hplace, hshortest, hsearch⟩ := hx.exists_shortest hne
  obtain ⟨digits, count, hcount, hinside, hvalue⟩ := isInside_of_searchGrids Nat.one_pos hsearch
  rw [hshortest]
  refine isWithin_of_isInside ?_ hinside
  have hten : (10 : ℚ) ≠ 0 := by norm_num
  obtain ⟨places, hplaces, hwide⟩ : ∃ places : Nat, places = 360 ∧ wide = 10 ^ places :=
    ⟨360, rfl, by decide +kernel⟩
  have hexponent : (place : Int) - count - 360 = (place - count : Nat) - (places : Nat) := by omega
  rw [hvalue, hexponent, zpow_sub₀ hten, zpow_natCast, zpow_natCast, hwide]
  push_cast
  generalize (one : ℚ) = unit
  field_simp

/-- The shortest decimal of a value is rounded to it. -/
theorem IsCanonical.isNearest_shortest {x : Binary64} (hx : x.IsCanonical) :
    IsNearest IsCanonical x.shortest.toRat x := by
  by_cases hzero : x.mantissa = 0
  · obtain ⟨mantissa, scale⟩ := x
    obtain rfl : mantissa = 0 := hzero
    obtain rfl : scale = 0 := hx.normal.resolve_right (Nat.not_le.mpr (by decide : 0 < 2 ^ 52))
    have hnone : shortest ⟨0, 0⟩ = ⟨0, 0⟩ := rfl
    rw [hnone, Decimal.toRat, Nat.cast_zero, zero_mul]
    refine isNearest_zero le_rfl ?_
    rw [mul_zero, zero_mul]
    exact zero_le_one
  · exact hx.isNearest (hx.isWithin_shortest hzero)

end Binary64

end LineScript
